import Availability.Suppression

/-!
# Audits

What checking files has found: the diagnostics that stand, those that a comment silences, and the
files that could not be read.
-/
namespace Availability

/-- A diagnostic with the suppression that silences it. -/
structure Suppressed where
  diagnostic : Diagnostic
  suppression : Suppression
  deriving DecidableEq

structure Audit where
  diagnostics : List Diagnostic := []
  suppressed : List Suppressed := []
  /-- The number of files that were read. -/
  scanned : Nat := 0
  skipped : List String := []
  deriving DecidableEq

namespace Audit

/-- The audit of one file from its diagnostics: the first suppression that covers a diagnostic
silences it. -/
def ofFile (suppressions : List Suppression) (found : List Diagnostic) : Audit where
  diagnostics := found.filter fun d => !suppressions.any (·.covers d)
  suppressed := found.filterMap fun d => (suppressions.find? (·.covers d)).map (⟨d, ·⟩)
  scanned := 1

/-- The audit of a file that could not be read. -/
def ofUnreadable (file : String) : Audit where
  skipped := [file]

def append (a b : Audit) : Audit where
  diagnostics := a.diagnostics ++ b.diagnostics
  suppressed := a.suppressed ++ b.suppressed
  scanned := a.scanned + b.scanned
  skipped := a.skipped ++ b.skipped

/-- Joins audits in order. -/
def concat (audits : List Audit) : Audit :=
  audits.foldl append {}

end Audit

/-- Diagnostics are ordered by file and line. -/
def Diagnostic.before (a b : Diagnostic) : Bool :=
  decide (a.file < b.file) || (a.file == b.file && decide (a.line ≤ b.line))

/-- Orders an audit by file and line; what stands on one line keeps its order. -/
def Audit.sort (a : Audit) : Audit where
  diagnostics := a.diagnostics.mergeSort Diagnostic.before
  suppressed := a.suppressed.mergeSort fun s t => s.diagnostic.before t.diagnostic
  scanned := a.scanned
  skipped := a.skipped.mergeSort fun s t => decide (s ≤ t)

end Availability
