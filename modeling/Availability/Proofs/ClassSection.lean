import Availability.Proofs.Lineage
import Availability.Proofs.Outcomes
import Availability.Proofs.TableGeneration

/-!
# The classes of a table

A table keeps the classes of the sources that it was extracted from. They stand in another order
there, that of their names, but as long as no two classes have names that differ in the case of
letters only, every class has the ancestors that it has among the classes of the sources.
-/
namespace Availability

open Files (Disk Path.below)

namespace ClassRecord

variable {records others : List ClassRecord} {name : String} {record : ClassRecord}

/-- Of classes with different names, the one with a name is found. -/
theorem first?_eq_some_iff (hnodup : (records.map fun r => Text.lower r.name).Nodup) :
    first? records name = some record ↔
      record ∈ records ∧ Text.lower record.name = Text.lower name := by
  constructor
  · intro h
    exact ⟨List.mem_of_find?_eq_some h, lower_of_first? h⟩
  · rintro ⟨hmem, hname⟩
    obtain ⟨found, hfound⟩ := exists_first?_iff.mpr ⟨record, hmem, hname⟩
    have hlower := (lower_of_first? hfound).trans hname.symm
    obtain rfl : found = record :=
      List.inj_on_of_nodup_map hnodup (List.mem_of_find?_eq_some hfound) hmem hlower
    exact hfound

/-- The order of classes with different names does not count. -/
theorem first?_eq_of_mem_iff (hnodup : (records.map fun r => Text.lower r.name).Nodup)
    (hmem : ∀ r, r ∈ others ↔ r ∈ records) : first? others name = first? records name := by
  cases hfound : first? others name with
  | some record =>
    have hrecord := (hmem record).mp (List.mem_of_find?_eq_some hfound)
    exact ((first?_eq_some_iff hnodup).mpr ⟨hrecord, lower_of_first? hfound⟩).symm
  | none =>
    have hnone := first?_eq_none_iff.mp hfound
    exact (first?_eq_none_iff.mpr fun record hrecord =>
      hnone record ((hmem record).mpr hrecord)).symm

end ClassRecord

namespace Extraction

variable {files : List FileSymbols} {found : Extraction} {parse : Php.Parser} {disk : Disk}
  {root : String} {names : List String}

/-- The classes that a source at or below a root declares. -/
def declaredIn (parse : Php.Parser) (disk : Disk) (root : String) (names : List String) :
    List ClassRecord :=
  match treeAt parse disk (Path.below root names) with
  | .ok tree => (DeclaredClass.ofTree tree).map DeclaredClass.record
  | .error _ => []

/-- If no name is declared twice, the classes of the table are those that the files declare. -/
theorem mem_classes_merge (h : merge files = .ok found)
    (hnodup : ((files.flatMap (·.classes)).map (·.name)).Nodup) (record : ClassRecord) :
    record ∈ found.table.classes.map (fun (name, entry) => ⟨name, entry.parent⟩) ↔
      record ∈ (files.flatMap (·.classes)).map DeclaredClass.record := by
  have hkeys := (ordered_merge h).classes.nodup_keys
  constructor
  · intro hrecord
    obtain ⟨⟨name, entry⟩, hentry, rfl⟩ := List.mem_map.mp hrecord
    rw [← Keyed.get?_eq_some_iff hkeys, get?_classes_merge h] at hentry
    obtain ⟨c, hc, rfl⟩ := Option.map_eq_some_iff.mp hentry
    have hname : c.name = name := by simpa using List.find?_some hc
    exact List.mem_map.mpr ⟨c, List.mem_of_find?_eq_some hc, by rw [DeclaredClass.record, hname]⟩
  · intro hrecord
    obtain ⟨c, hc, rfl⟩ := List.mem_map.mp hrecord
    have hfind : (files.flatMap (·.classes)).find? (·.name == c.name) = some c := by
      cases hfound : (files.flatMap (·.classes)).find? (·.name == c.name) with
      | none => simpa using List.find?_eq_none.mp hfound c hc
      | some other =>
        have hname : other.name = c.name := by simpa using List.find?_some hfound
        rw [List.inj_on_of_nodup_map hnodup (List.mem_of_find?_eq_some hfound) hc hname]
    have hget := get?_classes_merge h c.name
    rw [hfind, Option.map_some, Keyed.get?_eq_some_iff hkeys] at hget
    exact List.mem_map.mpr ⟨_, hget, rfl⟩

theorem declaredIn_of_ofFile {s : FileSymbols} (h : ofFile parse disk root names = .ok s) :
    s.classes.map DeclaredClass.record = declaredIn parse disk root names := by
  obtain ⟨tree, htree, hsymbols⟩ := ofFile_eq_ok_iff.mp h
  rw [FileSymbols.classes_ofTree hsymbols, declaredIn, htree]

theorem declaredIn_of_forall₂ {sources : List (List String)} {symbols : List FileSymbols}
    (h : List.Forall₂ (fun names s => ofFile parse disk root names = .ok s) sources symbols) :
    (symbols.flatMap (·.classes)).map DeclaredClass.record =
      sources.flatMap (declaredIn parse disk root) := by
  induction h with
  | nil => rfl
  | cons hfile _ ih =>
    rw [List.flatMap_cons, List.flatMap_cons, List.map_append, declaredIn_of_ofFile hfile, ih]

/-- Classes have the same ancestors by the table that was extracted from sources as by the sources
themselves, unless two of them have names that differ at most in the case of letters. -/
theorem ancestors?_ofTable_ofRoot {parse : Php.Parser} {disk : Disk} {exclusions : List String}
    {root : String} {files : List (List String)} {found : Extraction}
    (hfiles : Sources.declaring disk exclusions root = .ok files)
    (hfound : ofRoot parse disk exclusions root = .ok found)
    (hdistinct : ((files.flatMap (declaredIn parse disk root)).map
      fun r => Text.lower r.name).Nodup)
    (name : String) :
    (Classes.ofTable found.table).ancestors? name =
      (Classes.insertAll {} (files.flatMap (declaredIn parse disk root))).ancestors? name := by
  obtain ⟨files', symbols, hfiles', hsymbols, hmerge⟩ := ofRoot_eq_ok_iff.mp hfound
  obtain rfl : files = files' := by simpa [hfiles] using hfiles'
  have hdeclared := declaredIn_of_forall₂ hsymbols
  have hnames : ((symbols.flatMap (·.classes)).map (·.name)).Nodup := by
    rw [← hdeclared, List.map_map] at hdistinct
    refine List.Nodup.of_map Text.lower ?_
    rwa [List.map_map]
  refine Classes.ancestors?_of_find? (Classes.Distinct.empty.insertAll _)
    (Classes.Distinct.empty.insertAll _) (fun name => ?_) name
  change ClassRecord.first? (Classes.insertAll {} _).records name =
    ClassRecord.first? (Classes.insertAll {} _).records name
  rw [ClassRecord.first?_insertAll, ClassRecord.first?_insertAll]
  refine ClassRecord.first?_eq_of_mem_iff hdistinct fun record => ?_
  rw [mem_classes_merge hmerge hnames, hdeclared]

/-- Classes that extend classes of other files, in whatever case, one another, and unknown ones. -/
def relatives : Disk where
  tree := .directory [
    ("a.php", .file (Text.encode
      "<?php class Z extends m \x7b\x7d class K extends Other \x7b\x7d")),
    ("b.php", .file (Text.encode
      "<?php class M extends A \x7b\x7d class A extends z \x7b\x7d"))]

theorem ancestors?_ofTable_ofRoot_relatives :
    ∃ files found, Sources.declaring relatives [] "/" = .ok files ∧
      ofRoot Php.parser relatives [] "/" = .ok found ∧
      ((files.flatMap (declaredIn Php.parser relatives "/")).map
        fun r => Text.lower r.name).Nodup ∧
      found.table.classes.map Prod.fst = ["A", "K", "M", "Z"] ∧
      (Classes.insertAll {} (files.flatMap (declaredIn Php.parser relatives "/"))).ancestors? "Z" =
        some ["M", "A"] ∧
      (Classes.ofTable found.table).ancestors? "Z" = some ["M", "A"] := by
  have hfiles : Sources.declaring relatives [] "/" = .ok [["a.php"], ["b.php"]] := by
    decide +kernel
  have hdeclared : [["a.php"], ["b.php"]].flatMap (declaredIn Php.parser relatives "/") =
      [⟨"Z", some "m"⟩, ⟨"K", some "Other"⟩, ⟨"M", some "A"⟩, ⟨"A", some "z"⟩] := by
    decide +kernel
  have hclasses : (ofRoot Php.parser relatives [] "/").map (·.table.classes.map Prod.fst) =
      .ok ["A", "K", "M", "Z"] := by
    decide +kernel
  cases hfound : ofRoot Php.parser relatives [] "/" with
  | error e => simp [hfound] at hclasses
  | ok found =>
    rw [hfound] at hclasses
    have hdistinct : (([["a.php"], ["b.php"]].flatMap (declaredIn Php.parser relatives "/")).map
        fun r => Text.lower r.name).Nodup := by
      rw [hdeclared]
      decide +kernel
    have hline : (Classes.insertAll {} ([["a.php"], ["b.php"]].flatMap
        (declaredIn Php.parser relatives "/"))).ancestors? "Z" = some ["M", "A"] := by
      rw [hdeclared]
      decide +kernel
    refine ⟨_, found, hfiles, rfl, hdistinct, Except.ok.inj hclasses, hline, ?_⟩
    rw [ancestors?_ofTable_ofRoot hfiles hfound hdistinct, hline]

end Extraction

end Availability
