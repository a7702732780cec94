import Availability.Proofs.LetterCase
import Availability.Proofs.Outcomes
import Availability.Proofs.TableGeneration

/-!
# Names that collide

Two symbols with one name end an extraction. Names that differ in the case of letters only are not
one name to it, so both get into the table, and the names of the table are as different as those of
the sources: its symbols can be told apart without the case of letters exactly if theirs can.
-/
namespace Availability

open Files (Disk Path.below)

namespace Keyed

variable {α : Type} {entries : List (String × α)}

/-- With each key once, entries are put in order and none is lost. -/
theorem ofList_perm (hkeys : (entries.map Prod.fst).Nodup) : (ofList entries).Perm entries := by
  have hordered : ((ofList entries).map Prod.fst).Nodup := (ascending_ofList entries).nodup_keys
  refine (List.perm_ext_iff_of_nodup hordered.of_map hkeys.of_map).mpr ?_
  rintro ⟨key, value⟩
  rw [← get?_eq_some_iff hordered, get?_ofList hkeys, get?_eq_some_iff hkeys]

end Keyed

namespace Extraction

variable {parse : Php.Parser} {disk : Disk} {root : String} {names : List String}
  {files : List (List String)} {symbols : List FileSymbols} {found : Extraction}

/-- The names of the symbols that a source at or below a root declares, in its order, each as often
as it is declared. -/
def symbolNames (parse : Php.Parser) (disk : Disk) (root : String) (names : List String) :
    List String :=
  match treeAt parse disk (Path.below root names) with
  | .ok tree =>
    ((Declaration.ofTree tree).filter fun d => !d.isExcluded).filterMap
      fun d => (d.symbol? d.outcome).map (·.name)
  | .error _ => []

theorem names_of_ofFile {s : FileSymbols} (h : ofFile parse disk root names = .ok s) :
    Extraction.names s = symbolNames parse disk root names := by
  obtain ⟨tree, htree, hsymbols⟩ := ofFile_eq_ok_iff.mp h
  rw [FileSymbols.ofTree, FileSymbols.foldlM_add] at hsymbols
  split at hsymbols
  · cases hsymbols
  · obtain rfl := Except.ok.inj hsymbols
    simp only [Extraction.names, List.nil_append, List.map_filterMap, symbolNames, htree]

theorem names_of_forall₂
    (h : List.Forall₂ (fun names s => ofFile parse disk root names = .ok s) files symbols) :
    symbols.flatMap Extraction.names = files.flatMap (symbolNames parse disk root) := by
  induction h with
  | nil => rfl
  | cons hfile _ ih => rw [List.flatMap_cons, List.flatMap_cons, names_of_ofFile hfile, ih]

/-- The table has the names of the symbols, each as often as there are symbols of that name. -/
theorem names_perm_of_merge (h : merge symbols = .ok found) :
    (found.table.symbols.map Prod.fst).Perm (symbols.flatMap Extraction.names) := by
  obtain ⟨hnodup, rfl⟩ := merge_eq_ok h
  have hperm := (Keyed.ofList_perm (nodup_entries_iff.mpr hnodup)).map Prod.fst
  unfold Extraction.names
  simpa [entries, List.map_flatMap, Function.comp_def] using hperm

/-- Sources that can all be read fail exactly if two of their symbols have the same name. Otherwise
the table has the names of all symbols of the sources, and two of them differ in the case of letters
only exactly if this is so in the sources. -/
theorem ofRoot_collisions {parse : Php.Parser} {disk : Disk} {exclusions : List String}
    (hfiles : Sources.declaring disk exclusions root = .ok files) :
    ((∀ names ∈ files, ∃ s, ofFile parse disk root names = .ok s) →
      ((∃ e, ofRoot parse disk exclusions root = .error (.duplicate e)) ↔
        ¬(files.flatMap (symbolNames parse disk root)).Nodup)) ∧
      ∀ found, ofRoot parse disk exclusions root = .ok found →
        (found.table.symbols.map Prod.fst).Perm (files.flatMap (symbolNames parse disk root)) ∧
        (found.table.symbols.map Prod.fst).Nodup ∧
        (found.table.DistinctLetters ↔
          ((files.flatMap (symbolNames parse disk root)).map Text.lower).Nodup) := by
  refine ⟨fun hread => ?_, fun found hfound => ?_⟩
  · obtain ⟨symbols, hsymbols⟩ := exists_mapM_eq_ok_iff.mpr hread
    have hroot : ofRoot parse disk exclusions root = (merge symbols).mapError .duplicate := by
      simp [ofRoot, hfiles, hsymbols]
    rw [← names_of_forall₂ (mapM_eq_ok_iff.mp hsymbols), ← exists_merge_iff, hroot]
    cases merge symbols <;> simp
  · obtain ⟨files', symbols, hfiles', hsymbols, hmerge⟩ := ofRoot_eq_ok_iff.mp hfound
    obtain rfl : files = files' := by simpa [hfiles] using hfiles'
    have hperm := names_perm_of_merge hmerge
    rw [names_of_forall₂ hsymbols] at hperm
    refine ⟨hperm, (ordered_merge hmerge).symbols.nodup_keys, ?_⟩
    have hlower := (hperm.map Text.lower).nodup_iff
    rwa [List.map_map] at hlower

/-- Two files that declare one function in different spellings, with different versions. -/
def twoSpellings : Disk where
  tree := .directory [
    ("a.php", .file (Text.encode "<?php /** @since 5.0 */ function wp_x()\x7b\x7d")),
    ("b.php", .file (Text.encode "<?php /** @since 6.0 */ function WP_X()\x7b\x7d"))]

theorem ofRoot_collisions_twoSpellings :
    ∃ files, Sources.declaring twoSpellings [] "/" = .ok files ∧
      files.flatMap (symbolNames Php.parser twoSpellings "/") = ["wp_x", "WP_X"] ∧
      ¬∃ e, ofRoot Php.parser twoSpellings [] "/" = .error (.duplicate e) := by
  have hfiles : Sources.declaring twoSpellings [] "/" = .ok [["a.php"], ["b.php"]] := by
    decide +kernel
  have hnames : [["a.php"], ["b.php"]].flatMap (symbolNames Php.parser twoSpellings "/") =
      ["wp_x", "WP_X"] := by
    decide +kernel
  have hread : ∀ names ∈ [["a.php"], ["b.php"]],
      (ofFile Php.parser twoSpellings "/" names).isOk = true := by
    decide +kernel
  refine ⟨_, hfiles, hnames, ?_⟩
  rw [(ofRoot_collisions hfiles).1 fun names hmem => ?_, hnames]
  · decide
  · have hok := hread names hmem
    cases hs : ofFile Php.parser twoSpellings "/" names with
    | error e => simp [hs, Except.isOk, Except.toBool] at hok
    | ok s => exact ⟨s, rfl⟩

/-- Both spellings get into the table, and any third one is taken for the first of them. -/
theorem not_distinctLetters_twoSpellings :
    ∃ found, ofRoot Php.parser twoSpellings [] "/" = .ok found ∧ ¬found.table.DistinctLetters ∧
      found.table.symbols.map Prod.fst = ["WP_X", "wp_x"] ∧
      found.table.find? "Wp_x" = some ("WP_X", ⟨⟨6, 0, 0⟩, none⟩) := by
  have htable : (ofRoot Php.parser twoSpellings [] "/").map (·.table) =
      .ok { symbols := [("WP_X", ⟨⟨6, 0, 0⟩, none⟩), ("wp_x", ⟨⟨5, 0, 0⟩, none⟩)] } := by
    decide +kernel
  cases hfound : ofRoot Php.parser twoSpellings [] "/" with
  | error e => simp [hfound] at htable
  | ok found =>
    rw [hfound] at htable
    have heq : found.table = _ := Except.ok.inj htable
    refine ⟨found, rfl, ?_⟩
    rw [heq]
    decide

end Extraction

end Availability
