import Availability.Proofs.KnownClasses
import Availability.Proofs.Merging
import Mathlib.Data.List.Nodup

/-!
# The order of files does not count

Files may be given in any order if they have different names and share no class that the table does
not know. Classes that only one file declares are found the same way wherever the file stands, so
each file has the same audit, and sorting brings the audits into one order.
-/
namespace Availability

/-- Lists may be joined in any order if only one of them has something. -/
theorem flatMap_eq_of_perm {α β : Type} {f : α → List β} {l l' : List α} (hperm : l.Perm l')
    (hone : l.Pairwise fun x y => f x = [] ∨ f y = []) : l.flatMap f = l'.flatMap f := by
  induction hperm with
  | nil => rfl
  | cons x _ ih => rw [List.flatMap_cons, List.flatMap_cons, ih hone.of_cons]
  | swap x y l =>
    simp only [List.flatMap_cons]
    rcases List.rel_of_pairwise_cons hone List.mem_cons_self with hnone | hnone <;> simp [hnone]
  | trans hperm _ ih ih' =>
    exact (ih hone).trans (ih' ((hperm.pairwise_iff fun h => h.symm).mp hone))

/-- A policy knows classes by the order in which their ancestors are looked up. -/
theorem Policy.diagnose_congr {p : Policy} {classes : Classes}
    (h : p.classes.probeOrder = classes.probeOrder) (file : String) (tree : Php.Node) :
    p.diagnose file tree = { p with classes }.diagnose file tree := by
  have hcandidate (scope : Scope) (call : Php.Node) :
      Candidate.ofCall? p.classes scope call = Candidate.ofCall? classes scope call := by
    simp only [Candidate.ofCall?, Candidate.ofMethod?, h]
  have hcheck (v : Visit) : p.check v = { p with classes }.check v := by
    simp only [check, hcandidate]
    rfl
  simp only [diagnose, hcheck]

namespace Check

variable {c : Check} {files files' : List SourceFile}

/-- Classes that are declared in two files are classes of the table. -/
def SharesKnownClasses (c : Check) (files : List SourceFile) : Prop :=
  files.Pairwise fun f g => ∀ declared ∈ f.classes, ∀ other ∈ g.classes,
    Text.sameLetters declared.name other.name = true →
      ∃ entry ∈ c.table.classes, Text.sameLetters entry.1 declared.name = true

instance (c : Check) (files : List SourceFile) : Decidable (c.SharesKnownClasses files) :=
  inferInstanceAs (Decidable (List.Pairwise _ _))

/-- A class of the table is known in whatever case its name is written. -/
theorem isSome_find?_ofTable {table : SymbolTable} {entry : String × ClassEntry}
    (hentry : entry ∈ table.classes) {name : String}
    (hname : Text.sameLetters entry.1 name = true) :
    ((Classes.ofTable table).find? name).isSome = true := by
  rw [Classes.ofTable, Classes.find?_insertAll, Option.isSome_or, Bool.or_eq_true]
  refine .inr (List.find?_isSome.mpr ⟨⟨entry.1, entry.2.parent⟩, ?_, hname⟩)
  exact List.mem_map_of_mem hentry

theorem find?_policy_perm (hperm : files.Perm files') (hshared : c.SharesKnownClasses files)
    (name : String) :
    (c.policy files).classes.find? name = (c.policy files').classes.find? name := by
  simp only [policy, Classes.find?_insertAll]
  cases hknown : (Classes.ofTable c.table).find? name with
  | some record => rfl
  | none =>
    rw [Option.none_or, Option.none_or, ← List.head?_filter, ← List.head?_filter,
      List.filter_flatMap, List.filter_flatMap]
    -- the name is not in the table, so at most one of the files declares it
    congr 1
    refine flatMap_eq_of_perm hperm (hshared.imp fun {f g} hfg => ?_)
    by_contra hboth
    obtain ⟨hf, hg⟩ := not_or.mp hboth
    obtain ⟨declared, hdeclared⟩ := List.exists_mem_of_ne_nil _ hf
    obtain ⟨other, hother⟩ := List.exists_mem_of_ne_nil _ hg
    obtain ⟨hmem, hname⟩ := List.mem_filter.mp hdeclared
    obtain ⟨hmem', hname'⟩ := List.mem_filter.mp hother
    simp only [Text.sameLetters, beq_iff_eq] at hname hname'
    obtain ⟨entry, hentry, hsame⟩ := hfg declared hmem other hmem' (by
      simp [hname, hname'])
    have hsome : ((Classes.ofTable c.table).find? name).isSome = true :=
      isSome_find?_ofTable hentry (by simpa [hname] using hsame)
    simp [hknown] at hsome

theorem distinct_policy (files : List SourceFile) : (c.policy files).classes.Distinct :=
  (Classes.Distinct.empty.insertAll _).insertAll _

/-- A file has the same audit wherever the other files stand. -/
theorem audit_policy_perm (hperm : files.Perm files') (hshared : c.SharesKnownClasses files)
    (f : SourceFile) : f.audit (c.policy files) = f.audit (c.policy files') := by
  have horder := Classes.probeOrder_congr (distinct_policy files) (distinct_policy files')
    (find?_policy_perm hperm hshared)
  unfold SourceFile.audit
  rw [Policy.diagnose_congr horder]
  rfl

/-- What is sorted by the names of files first may be collected from the files in any order. -/
theorem mergeSort_flatMap_perm {β : Type} (le : β → β → Bool)
    (trans : ∀ a b c, le a b → le b c → le a c) (total : ∀ a b, le a b || le b a)
    {file : β → String} (hties : ∀ a b, ties le a b = true → file a = file b)
    {found : SourceFile → List β} (hfound : ∀ f, ∀ b ∈ found f, file b = f.label)
    (hperm : files.Perm files') (hlabels : (files.map (·.label)).Nodup) :
    (files.flatMap found).mergeSort le = (files'.flatMap found).mergeSort le := by
  refine mergeSort_eq_of_ties trans total fun a => ?_
  rw [List.filter_flatMap, List.filter_flatMap]
  refine flatMap_eq_of_perm hperm ((List.pairwise_map.mp hlabels).imp fun {f g} hne => ?_)
  have named {f : SourceFile} (h : (found f).filter (ties le a) ≠ []) : file a = f.label := by
    obtain ⟨b, hb⟩ := List.exists_mem_of_ne_nil _ h
    obtain ⟨hmem, htie⟩ := List.mem_filter.mp hb
    exact (hties a b htie).trans (hfound f b hmem)
  by_contra hboth
  obtain ⟨hf, hg⟩ := not_or.mp hboth
  exact hne ((named hf).symm.trans (named hg))

/-- Files with different names that share no class unknown to the table have one audit, whatever
their order. -/
theorem run_perm (c : Check) (parse : Php.Parser) (disk : Files.Disk) {paths paths' : List String}
    (hperm : paths.Perm paths') (hlabels : (paths.map c.label).Nodup)
    (hshared : c.SharesKnownClasses (c.filesRead parse disk paths)) :
    c.run parse disk paths = c.run parse disk paths' := by
  have hfiles : (c.filesRead parse disk paths).Perm (c.filesRead parse disk paths') :=
    (hperm.map _).filterMap _
  have hunread : (c.unreadNames parse disk paths).Perm (c.unreadNames parse disk paths') :=
    (hperm.map _).filterMap _
  have hnames := hlabels.sublist (c.labels_filesRead parse disk paths)
  rw [run_eq, run_eq]
  simp only [audit_policy_perm hfiles hshared, Audit.sort, Audit.mk.injEq]
  refine ⟨?_, ?_, hfiles.length_eq, ?_⟩
  · exact mergeSort_flatMap_perm Diagnostic.before Diagnostic.before_trans
      Diagnostic.before_total (fun _ _ htie => (Diagnostic.ties_before_iff.mp htie).1)
      (fun _ _ => SourceFile.file_of_mem_diagnostics) hfiles hnames
  · exact mergeSort_flatMap_perm (fun s t : Suppressed => s.diagnostic.before t.diagnostic)
      (fun _ _ _ => Diagnostic.before_trans _ _ _)
      (fun _ _ => Diagnostic.before_total _ _)
      (fun _ _ htie => (Suppressed.ties_before_iff.mp htie).1)
      (fun _ _ => SourceFile.file_of_mem_suppressed) hfiles hnames
  · refine mergeSort_eq_of_perm ?_ ?_ ?_ hunread
    · simpa using fun a b c => @String.le_trans a b c
    · simpa using String.le_total
    · simpa using fun a b => @String.le_antisymm a b

/-- A check of a method that a class inherits. -/
def inheritance : Check where
  base := "/"
  table := { symbols := [("Aa::f", ⟨⟨6, 1, 0⟩, none⟩)], classes := [("Aa", {})] }
  minimum := ⟨6, 0, 0⟩

/-- A file that declares a class, and one that uses it; both declare a class of the table. -/
def inheritanceDisk : Files.Disk where
  tree := .directory [
    ("a.php", .file (Text.encode "<?php class B extends Aa \x7b\x7d class aa \x7b\x7d")),
    ("b.php", .file (Text.encode "<?php class AA \x7b\x7d (new B)->f();"))]

theorem run_perm_inheritance :
    let paths := ["/a.php", "/b.php", "/none.php"]
    let paths' := ["/none.php", "/b.php", "/a.php"]
    paths.Perm paths' ∧ (paths.map inheritance.label).Nodup ∧
      inheritance.SharesKnownClasses (inheritance.filesRead Php.parser inheritanceDisk paths) ∧
      (inheritance.run Php.parser inheritanceDisk paths).diagnostics.length = 1 ∧
      inheritance.run Php.parser inheritanceDisk paths =
        inheritance.run Php.parser inheritanceDisk paths' := by
  intro paths paths'
  have hperm : paths.Perm paths' := by decide
  have hfiles : (paths.map inheritance.label).Nodup ∧
      inheritance.SharesKnownClasses (inheritance.filesRead Php.parser inheritanceDisk paths) ∧
      (inheritance.run Php.parser inheritanceDisk paths).diagnostics.length = 1 := by
    decide +kernel
  obtain ⟨hlabels, hshared, hfound⟩ := hfiles
  exact ⟨hperm, hlabels, hshared, hfound,
    run_perm inheritance Php.parser inheritanceDisk hperm hlabels hshared⟩

end Check

end Availability
