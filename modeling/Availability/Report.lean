import Availability.Audit

/-!
# Reports

A report is an audit as it is given to the user, with what was checked.
-/
namespace Availability

/-- The name of the program in its output. -/
def programName : String := "wpcompat"

def programVersion : String := "0.1.0"

namespace Report

/-- What was checked. -/
structure Heading where
  path : String
  platform : String
  minimum : Version

structure Item where
  rule : String
  file : String
  line : Nat
  symbol : String
  since : String
  message : String
  deriving DecidableEq

structure Directive where
  rule : String
  reason : String
  file : String
  line : Nat
  reach : String
  deriving DecidableEq

structure SuppressedItem where
  diagnostic : Item
  suppression : Directive
  deriving DecidableEq

end Report

open Report in
structure Report where
  version : String
  path : String
  platform : String
  requiresAtLeast : String
  passed : Bool
  filesScanned : Nat
  diagnostics : List Item
  suppressed : List SuppressedItem
  suppressedCount : Nat
  skipped : List String
  deriving DecidableEq

namespace Reach

def name : Reach → String
  | line => "line"
  | nextLine => "nextline"
  | file => "file"

def ofName? : String → Option Reach
  | "line" => some line
  | "nextline" => some nextLine
  | "file" => some file
  | _ => none

@[simp] theorem ofName?_name (r : Reach) : ofName? r.name = some r := by
  cases r <;> rfl

end Reach

namespace Report

def Item.ofDiagnostic (d : Diagnostic) : Item where
  rule := d.issue.name
  file := d.file
  line := d.line
  symbol := d.symbol
  since := d.since.toString
  message := d.message

def Directive.ofSuppression (s : Suppression) : Directive where
  rule := s.rule
  reason := s.reason
  file := s.file
  line := s.line
  reach := s.reach.name

def SuppressedItem.ofSuppressed (s : Suppressed) : SuppressedItem where
  diagnostic := .ofDiagnostic s.diagnostic
  suppression := .ofSuppression s.suppression

def ofAudit (heading : Heading) (audit : Audit) : Report where
  version := programVersion
  path := heading.path
  platform := heading.platform
  requiresAtLeast := heading.minimum.toString
  passed := audit.diagnostics.isEmpty
  filesScanned := audit.scanned
  diagnostics := audit.diagnostics.map .ofDiagnostic
  suppressed := audit.suppressed.map .ofSuppressed
  suppressedCount := audit.suppressed.length
  skipped := audit.skipped

end Report

end Availability
