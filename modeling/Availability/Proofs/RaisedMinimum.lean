import Availability.Proofs.Accounting

/-!
# Raising the minimum version

The minimum version decides about a finding when all else about it is settled: what is visited,
which guards are active and which symbol is found do not depend on it. So raising the minimum drops
the findings whose symbols are old enough then, and changes nothing else.
-/
namespace Availability

namespace Version

theorem le_iff {a b : Version} :
    a ≤ b ↔ a.major < b.major ∨ (a.major = b.major ∧
      (a.minor < b.minor ∨ (a.minor = b.minor ∧ a.patch ≤ b.patch))) := by
  change (compare a b).isLE = true ↔ _
  simp only [compare, Ordering.isLE_then_iff_or, Nat.compare_eq_lt, Nat.compare_eq_eq,
    Nat.isLE_compare, UInt32.lt_iff_toNat_lt, UInt32.le_iff_toNat_le, ← UInt32.toNat_inj]

theorem le_trans {a b c : Version} (hab : a ≤ b) (hbc : b ≤ c) : a ≤ c := by
  simp only [le_iff, UInt32.lt_iff_toNat_lt, UInt32.le_iff_toNat_le, ← UInt32.toNat_inj] at *
  omega

/-- Whether a version is greater than another. -/
def isNewer (v other : Version) : Bool :=
  v.compare other == .gt

theorem isNewer_eq (v other : Version) : v.isNewer other = !decide (v ≤ other) := by
  change _ = !decide ((v.compare other).isLE = true)
  unfold isNewer
  cases v.compare other <;> rfl

end Version

namespace Policy

variable (p : Policy) {low high : Version}

/-- Under a higher minimum a candidate has the finding it had, if that is newer. -/
theorem evaluate_raise (h : low ≤ high) (guards : Guards) (candidate : Candidate) :
    { p with minimum := high }.evaluate guards candidate =
      ({ p with minimum := low }.evaluate guards candidate).filter (·.since.isNewer high) := by
  have settled (issue : Issue) (symbol : String) (since : Version) (covered : Bool) :
      (if since ≤ high ∨ covered = true then none else some (p.finding issue symbol since)) =
        (if since ≤ low ∨ covered = true then none
          else some (p.finding issue symbol since)).filter (·.since.isNewer high) := by
    by_cases hlow : since ≤ low
    · simp [hlow, Version.le_trans hlow h]
    · by_cases hcovered : covered = true
      · simp [hcovered]
      · by_cases hhigh : since ≤ high <;>
          simp [hlow, hhigh, hcovered, finding, Version.isNewer_eq, Option.filter_some]
  cases candidate with
  | function name =>
    simp only [evaluate]
    split
    · rfl
    · exact settled _ _ _ _
  | method name receiver classes keys =>
    simp only [evaluate]
    split
    · rfl
    · exact settled _ _ _ _

theorem check_raise (h : low ≤ high) (v : Visit) :
    { p with minimum := high }.check v =
      ({ p with minimum := low }.check v).filter (·.since.isNewer high) := by
  simp only [check]
  cases Candidate.ofCall? p.classes v.walker.scope v.node with
  | none => rfl
  | some candidate => exact p.evaluate_raise h v.walker.guards candidate

theorem diagnose_raise (h : low ≤ high) (file : String) (tree : Php.Node) :
    { p with minimum := high }.diagnose file tree =
      ({ p with minimum := low }.diagnose file tree).filter (·.since.isNewer high) := by
  simp only [diagnose, List.filter_filterMap, p.check_raise h]
  congr 1
  funext v
  cases { p with minimum := low }.check v with
  | none => rfl
  | some f => cases hnewer : f.since.isNewer high <;> simp [hnewer, Option.filter_some]

end Policy

namespace Audit

/-- An audit without the diagnostics that a condition does not hold for. -/
def keep (f : Diagnostic → Bool) (a : Audit) : Audit :=
  { a with diagnostics := a.diagnostics.filter f
           suppressed := a.suppressed.filter fun s => f s.diagnostic }

variable (f : Diagnostic → Bool)

theorem ofFile_filter (suppressions : List Suppression) (found : List Diagnostic) :
    ofFile suppressions (found.filter f) = (ofFile suppressions found).keep f := by
  simp only [ofFile, keep, mk.injEq, List.filter_filter, List.filterMap_filter,
    List.filter_filterMap, and_true]
  constructor
  · congr 1
    funext d
    exact Bool.and_comm _ _
  · congr 1
    funext d
    cases hf : f d <;> cases suppressions.find? (·.covers d) <;> simp [hf, Option.filter_some]

theorem keep_append (a b : Audit) : (a.append b).keep f = (a.keep f).append (b.keep f) := by
  simp [append, keep]

theorem keep_concat (audits : List Audit) :
    (concat audits).keep f = concat (audits.map (keep f)) := by
  have fold (a : Audit) : (audits.foldl append a).keep f =
      (audits.map (keep f)).foldl append (a.keep f) := by
    induction audits generalizing a with
    | nil => rfl
    | cons b rest ih => simp only [List.foldl_cons, List.map_cons, ih, keep_append]
  exact fold {}

theorem keep_sort (a : Audit) : a.sort.keep f = (a.keep f).sort := by
  simp only [sort, keep, mk.injEq, and_true]
  constructor
  · exact (mergeSort_filter Diagnostic.before_trans Diagnostic.before_total _ _).symm
  · exact (@mergeSort_filter _ (fun s t : Suppressed => s.diagnostic.before t.diagnostic)
      (fun _ _ _ => Diagnostic.before_trans _ _ _)
      (fun _ _ => Diagnostic.before_total _ _) _ _).symm

end Audit

namespace Check

theorem auditAll_raise (c : Check) {low high : Version} (h : low ≤ high)
    (files : List (Except String SourceFile)) :
    { c with minimum := high }.auditAll files =
      ({ c with minimum := low }.auditAll files).keep (·.since.isNewer high) := by
  simp only [auditAll, Audit.keep_sort, Audit.keep_concat, List.map_map]
  congr 2
  apply List.map_congr_left
  intro file _
  cases file with
  | error label => rfl
  | ok f =>
    have hfound := (c.policy (files.filterMap Except.toOption)).diagnose_raise h f.label f.tree
    simp only [Function.comp_apply, SourceFile.audit, ← Audit.ofFile_filter]
    exact congrArg _ hfound

/-- Under a higher minimum, files have the diagnostics that they have under a lower one and that are
newer than the higher one, in the same order, and the same for what is silenced. -/
theorem run_raised_minimum (c : Check) (parse : Php.Parser) (disk : Files.Disk)
    (paths : List String) {low high : Version} (h : low ≤ high) :
    let before := { c with minimum := low }.run parse disk paths
    let after := { c with minimum := high }.run parse disk paths
    after.diagnostics = before.diagnostics.filter (·.since.isNewer high) ∧
      after.suppressed = before.suppressed.filter (·.diagnostic.since.isNewer high) ∧
      after.scanned = before.scanned ∧ after.skipped = before.skipped := by
  have hrun : { c with minimum := high }.run parse disk paths =
      ({ c with minimum := low }.run parse disk paths).keep (·.since.isNewer high) :=
    c.auditAll_raise h (paths.map (c.load parse disk))
  simp only [hrun, Audit.keep, and_self]

theorem run_raised_minimum_sample :
    let paths := ["/a.php", "/none.php", "/b.php"]
    let before := { functions with minimum := ⟨6, 0, 0⟩ }.run Php.parser commentedDisk paths
    let after := { functions with minimum := ⟨6, 1, 0⟩ }.run Php.parser commentedDisk paths
    (⟨6, 0, 0⟩ : Version) ≤ ⟨6, 1, 0⟩ ∧
      before.diagnostics = [callOf "f" ⟨6, 1, 0⟩ "a.php" 5, callOf "g" ⟨6, 2, 0⟩ "b.php" 1] ∧
      after.diagnostics = [callOf "g" ⟨6, 2, 0⟩ "b.php" 1] ∧
      before.suppressed.map (·.diagnostic) =
        [callOf "g" ⟨6, 2, 0⟩ "a.php" 4, callOf "f" ⟨6, 1, 0⟩ "a.php" 4] ∧
      after.suppressed.map (·.diagnostic) = [callOf "g" ⟨6, 2, 0⟩ "a.php" 4] ∧
      (before.scanned = 2 ∧ after.scanned = 2) ∧
      before.skipped = ["none.php"] ∧ after.skipped = ["none.php"] := by
  intro paths before after
  have hraise : (⟨6, 0, 0⟩ : Version) ≤ ⟨6, 1, 0⟩ := by decide
  obtain ⟨hdiagnostics, hsuppressed, hscanned, hskipped⟩ :=
    run_raised_minimum functions Php.parser commentedDisk paths hraise
  obtain ⟨-, htwo, hnone, hstanding, hsilenced⟩ := found_commentedDisk
  have hbefore : before.diagnostics = _ := functions.run_diagnostics Php.parser commentedDisk paths
  have hbefore' : before.suppressed = _ := functions.run_suppressed Php.parser commentedDisk paths
  -- the lines are in order before they are sorted
  rw [hstanding, List.mergeSort_of_pairwise (by decide +kernel)] at hbefore
  rw [hsilenced, List.mergeSort_of_pairwise (by decide +kernel)] at hbefore'
  have hrun : before = _ := functions.run_eq Php.parser commentedDisk paths
  have hread : before.scanned = 2 := (congrArg Audit.scanned hrun).trans htwo
  have hunread : before.skipped = ["none.php"] := by
    rw [hrun, Audit.sort, hnone, List.mergeSort_singleton]
  refine ⟨hraise, hbefore, ?_, ?_, ?_, ⟨hread, hscanned.trans hread⟩, hunread,
    hskipped.trans hunread⟩
  · rw [hdiagnostics, hbefore]
    decide +kernel
  · rw [hbefore']
    rfl
  · rw [hsuppressed, hbefore']
    decide +kernel

end Check

end Availability
