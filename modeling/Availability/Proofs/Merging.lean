import Availability.Check
import Availability.Proofs.Sorting

/-!
# What the audit of several files has

The audit of files is sorted from the audits of the files that can be read, one after the other, and
the names of those that cannot. All diagnostics of a file are named after it.
-/
namespace Availability

namespace Audit

theorem concat_eq (audits : List Audit) :
    concat audits =
      { diagnostics := audits.flatMap (·.diagnostics)
        suppressed := audits.flatMap (·.suppressed)
        scanned := audits.foldr (·.scanned + ·) 0
        skipped := audits.flatMap (·.skipped) } := by
  have fold (a : Audit) : audits.foldl append a =
      { diagnostics := a.diagnostics ++ audits.flatMap (·.diagnostics)
        suppressed := a.suppressed ++ audits.flatMap (·.suppressed)
        scanned := a.scanned + audits.foldr (·.scanned + ·) 0
        skipped := a.skipped ++ audits.flatMap (·.skipped) } := by
    induction audits generalizing a with
    | nil => simp
    | cons b rest ih => simp [ih, append, Nat.add_assoc]
  simpa [concat] using fold {}

end Audit

namespace Policy

theorem file_of_mem_diagnose {p : Policy} {file : String} {tree : Php.Node} {d : Diagnostic}
    (h : d ∈ p.diagnose file tree) : d.file = file := by
  obtain ⟨v, -, hv⟩ := List.mem_filterMap.mp h
  obtain ⟨f, -, rfl⟩ := Option.map_eq_some_iff.mp hv
  rfl

end Policy

namespace SourceFile

@[simp] theorem scanned_audit (f : SourceFile) (policy : Policy) :
    (f.audit policy).scanned = 1 := rfl

@[simp] theorem skipped_audit (f : SourceFile) (policy : Policy) :
    (f.audit policy).skipped = [] := rfl

variable {f : SourceFile} {policy : Policy}

theorem file_of_mem_diagnostics {d : Diagnostic} (h : d ∈ (f.audit policy).diagnostics) :
    d.file = f.label :=
  Policy.file_of_mem_diagnose (List.mem_of_mem_filter h)

theorem file_of_mem_suppressed {s : Suppressed} (h : s ∈ (f.audit policy).suppressed) :
    s.diagnostic.file = f.label := by
  obtain ⟨d, hd, hs⟩ := List.mem_filterMap.mp h
  obtain ⟨suppression, -, rfl⟩ := Option.map_eq_some_iff.mp hs
  exact Policy.file_of_mem_diagnose hd

end SourceFile

namespace Check

variable (c : Check) (parse : Php.Parser) (disk : Files.Disk) (paths : List String)

/-- The files that can be read. -/
def filesRead : List SourceFile :=
  (paths.map (c.load parse disk)).filterMap Except.toOption

/-- The names of the files that cannot be read. -/
def unreadNames : List String :=
  (paths.map (c.load parse disk)).filterMap fun
    | .ok _ => none
    | .error label => some label

theorem run_eq :
    let files := c.filesRead parse disk paths
    c.run parse disk paths = Audit.sort
      { diagnostics := files.flatMap fun f => (f.audit (c.policy files)).diagnostics
        suppressed := files.flatMap fun f => (f.audit (c.policy files)).suppressed
        scanned := files.length
        skipped := c.unreadNames parse disk paths } := by
  simp only [run, auditAll, filesRead, unreadNames, Audit.concat_eq]
  generalize c.policy _ = policy
  generalize paths.map (c.load parse disk) = files
  congr 1
  induction files with
  | nil => rfl
  | cons file rest ih =>
    simp only [Audit.mk.injEq] at ih
    obtain ⟨hdiagnostics, hsuppressed, hscanned, hskipped⟩ := ih
    cases file with
    | ok f =>
      simp only [List.map_cons, List.flatMap_cons, List.foldr_cons, List.filterMap_cons,
        Except.toOption, List.length_cons, hdiagnostics, hsuppressed, hscanned, hskipped,
        f.scanned_audit, f.skipped_audit, List.nil_append, Nat.add_comm 1]
    | error label =>
      simp only [List.map_cons, List.flatMap_cons, List.foldr_cons, List.filterMap_cons,
        Except.toOption, hdiagnostics, hsuppressed, hscanned, hskipped]
      simp [Audit.ofUnreadable]

theorem length_filesRead_add :
    (c.filesRead parse disk paths).length + (c.unreadNames parse disk paths).length =
      paths.length := by
  unfold filesRead unreadNames
  induction paths with
  | nil => rfl
  | cons path rest ih =>
    cases hload : c.load parse disk path <;>
      simp only [List.map_cons, hload, Except.toOption, List.filterMap_cons, List.length_cons] <;>
      omega

/-- A file is read if it has content and its content has a tree. -/
theorem load_eq_ok_iff {path : String} {f : SourceFile} :
    c.load parse disk path = .ok f ↔
      ∃ content parsed, disk.read path = .ok content ∧ parse content = some parsed ∧
        f = ⟨c.label path, content, parsed.tree⟩ := by
  unfold load
  cases hread : disk.read path with
  | error e => simp
  | ok content =>
    cases hparse : parse content with
    | none => simp [hparse]
    | some parsed => simp [hparse, eq_comm]

/-- Files are named as their paths are. -/
theorem labels_filesRead :
    ((c.filesRead parse disk paths).map (·.label)).Sublist (paths.map c.label) := by
  unfold filesRead
  induction paths with
  | nil => exact .slnil
  | cons path rest ih =>
    cases hload : c.load parse disk path with
    | error label =>
      simpa only [List.map_cons, hload, List.filterMap_cons, Except.toOption] using ih.cons _
    | ok f =>
      obtain ⟨_, _, -, -, rfl⟩ := (c.load_eq_ok_iff parse disk).mp hload
      simpa only [List.map_cons, hload, List.filterMap_cons, Except.toOption] using ih.cons_cons _

end Check

end Availability
