import Availability.Proofs.KeyOrder
import Availability.Proofs.Steps
import Mathlib.Data.List.Nodup
import Mathlib.Data.List.Perm.Basic

/-!
# Symbols of several files

Files are joined only if no name is the name of two symbols, be it in one file or in two. Then the
table has every symbol with its entry, in whatever order the files come, and of the classes with one
name the first. Otherwise the error tells of the first symbol whose name was there before.
-/
namespace Availability

namespace Keyed

variable {α : Type} {entries more : List (String × α)} {key : String} {value : α}

/-- With each key once, the entries are what is found. -/
theorem get?_eq_some_iff (hkeys : (entries.map Prod.fst).Nodup) :
    get? key entries = some value ↔ (key, value) ∈ entries := by
  induction entries with
  | nil => simp [get?]
  | cons entry entries ih =>
    obtain ⟨first, found⟩ := entry
    obtain ⟨hnew, hrest⟩ := List.nodup_cons.mp hkeys
    rw [get?_cons]
    split
    · rename_i heq
      obtain rfl : key = first := heq
      have hnot : (key, value) ∉ entries := fun hmem =>
        hnew (List.mem_map.mpr ⟨_, hmem, rfl⟩)
      simp [hnot, eq_comm]
    · rename_i hne
      simp [ih hrest, hne]

theorem get?_insertAll (hkeys : (more.map Prod.fst).Nodup) :
    get? key (more.foldl (fun map entry => insert entry.1 entry.2 map) entries) =
      (get? key more).or (get? key entries) := by
  induction more generalizing entries with
  | nil => simp [get?]
  | cons entry more ih =>
    obtain ⟨hnew, hrest⟩ := List.nodup_cons.mp hkeys
    rw [List.foldl_cons, ih hrest, get?_insert, get?_cons]
    split
    · rename_i heq
      have hnone : get? key more = none := by
        rw [Option.eq_none_iff_forall_ne_some]
        intro value hvalue
        exact hnew (heq ▸ List.mem_map_of_mem ((get?_eq_some_iff hrest).mp hvalue))
      simp [hnone]
    · rfl

theorem get?_ofList (hkeys : (entries.map Prod.fst).Nodup) :
    get? key (ofList entries) = get? key entries := by
  rw [ofList, get?_insertAll hkeys]
  simp [get?]

theorem Ascending.nodup_keys (h : Ascending entries) : (entries.map Prod.fst).Nodup :=
  List.pairwise_map.mpr (h.imp fun hlt => hlt.ne)

end Keyed

namespace Extraction

variable {files : List FileSymbols} {found : Extraction}

/-- The names of the symbols of a file. -/
def names (f : FileSymbols) : List String :=
  f.symbols.map (·.name)

/-- The symbols of all files with their places, in order. -/
def places (files : List FileSymbols) : List (String × String) :=
  files.flatMap fun f => f.symbols.map fun s => (s.name, location f.file s.line)

/-- The symbols of all files with their entries, in order. -/
def entries (files : List FileSymbols) : List (String × SymbolEntry) :=
  files.flatMap fun f => f.symbols.map fun s => (s.name, s.entry)

/-- The first symbol that was seen before. -/
def duplicate? (seen : List (String × String)) :
    List (String × String) → Option DuplicateSymbol
  | [] => none
  | (symbol, place) :: rest =>
    match seen.find? (·.1 == symbol) with
    | some (_, first) => some ⟨symbol, first, place⟩
    | none => duplicate? (seen ++ [(symbol, place)]) rest

theorem duplicate?_append (seen symbols more : List (String × String)) :
    duplicate? seen (symbols ++ more) =
      (duplicate? seen symbols).or (duplicate? (seen ++ symbols) more) := by
  induction symbols generalizing seen with
  | nil => simp [duplicate?]
  | cons symbol rest ih =>
    rw [List.cons_append, duplicate?, duplicate?]
    cases seen.find? (·.1 == symbol.1) with
    | some first => rfl
    | none => simp [ih]

namespace Draft

/-- Whether the places of a draft are those of the symbols so far. -/
def Knows (d : Draft) (seen : List (String × String)) : Prop :=
  ∀ name, Keyed.get? name d.places = Keyed.get? name seen

/-- One symbol is refused if its name was seen. Otherwise it is put into both lists. -/
theorem addSymbol_cases {d : Draft} {seen : List (String × String)} (h : d.Knows seen)
    (file : String) (s : ExtractedSymbol) :
    match seen.find? (·.1 == s.name) with
    | some (_, first) => addSymbol file d s = .error ⟨s.name, first, location file s.line⟩
    | none => ∃ places,
        addSymbol file d s =
          .ok { d with symbols := Keyed.insert s.name s.entry d.symbols, places } ∧
        Knows { d with symbols := Keyed.insert s.name s.entry d.symbols, places }
          (seen ++ [(s.name, location file s.line)]) := by
  have hplace : Keyed.get? s.name d.places = (seen.find? (·.1 == s.name)).map (·.2) := h s.name
  cases hseen : seen.find? (·.1 == s.name) with
  | some first =>
    rw [hseen] at hplace
    simp [addSymbol, hplace]
  | none =>
    rw [hseen] at hplace
    refine ⟨Keyed.insert s.name (location file s.line) d.places, ?_, fun name => ?_⟩
    · simp [addSymbol, hplace]
    · rw [Keyed.get?_insert, Keyed.get?_append, Keyed.get?_cons, ← h name]
      by_cases hname : name = s.name
      · simp [hname, hplace]
      · simp [hname]

/-- The symbols of a file are put in one after another, up to the first that was seen before. -/
theorem foldlM_addSymbol {d : Draft} {seen : List (String × String)} (h : d.Knows seen)
    (file : String) (symbols : List ExtractedSymbol) :
    match duplicate? seen (symbols.map fun s => (s.name, location file s.line)) with
    | some e => symbols.foldlM (addSymbol file) d = .error e
    | none => ∃ d' : Draft, symbols.foldlM (addSymbol file) d = .ok d' ∧
        d'.Knows (seen ++ symbols.map fun s => (s.name, location file s.line)) ∧
        d'.symbols = (symbols.map fun s => (s.name, s.entry)).foldl
          (fun map entry => Keyed.insert entry.1 entry.2 map) d.symbols ∧
        d'.classes = d.classes ∧ d'.notes = d.notes := by
  induction symbols generalizing d seen with
  | nil => exact ⟨d, rfl, by simpa using h, rfl, rfl, rfl⟩
  | cons s rest ih =>
    have hfirst := addSymbol_cases h file s
    rw [List.map_cons, duplicate?]
    cases hseen : seen.find? (·.1 == s.name) with
    | some first =>
      rw [hseen] at hfirst
      simp only [List.foldlM_cons, hfirst]
      rfl
    | none =>
      rw [hseen] at hfirst
      obtain ⟨places, hadd, hknows⟩ := hfirst
      simpa [List.foldlM_cons, hadd] using ih hknows

/-- Files are taken one after another, up to the first symbol that was seen before. -/
theorem foldlM_addFile {d : Draft} {seen : List (String × String)} (h : d.Knows seen)
    (files : List FileSymbols) :
    match duplicate? seen (Extraction.places files) with
    | some e => files.foldlM addFile d = .error e
    | none => ∃ d' : Draft, files.foldlM addFile d = .ok d' ∧
        d'.symbols = (entries files).foldl
          (fun map entry => Keyed.insert entry.1 entry.2 map) d.symbols ∧
        d'.classes = (files.flatMap (·.classes)).foldl addClass d.classes ∧
        d'.notes = d.notes ++ files.flatMap (·.notes) := by
  induction files generalizing d seen with
  | nil => exact ⟨d, rfl, rfl, rfl, by simp⟩
  | cons f rest ih =>
    have hfirst := foldlM_addSymbol h f.file f.symbols
    rw [Extraction.places, List.flatMap_cons, duplicate?_append]
    cases hfile : duplicate? seen (f.symbols.map fun s => (s.name, location f.file s.line)) with
    | some e =>
      rw [hfile] at hfirst
      simp only [List.foldlM_cons, addFile, hfirst]
      rfl
    | none =>
      rw [hfile] at hfirst
      obtain ⟨d', hsymbols, hknows, hd, hclasses, hnotes⟩ := hfirst
      have hrest := @ih
        { d' with classes := f.classes.foldl addClass d'.classes, notes := d'.notes ++ f.notes }
        _ hknows
      simpa [List.foldlM_cons, addFile, hsymbols, hd, hclasses, hnotes, entries,
        Extraction.places] using hrest

end Draft

/-- Files are joined in two passes: one looks for a name that was there before, the other puts all
entries in their places. -/
theorem merge_eq (files : List FileSymbols) :
    merge files =
      match duplicate? [] (places files) with
      | some e => .error e
      | none =>
        .ok {
          table := {
            symbols := Keyed.ofList (entries files)
            classes := (files.flatMap (·.classes)).foldl addClass [] }
          notes := files.flatMap (·.notes)
          filesScanned := files.length } := by
  have hloop := @Draft.foldlM_addFile {} [] (fun _ => rfl) files
  unfold merge
  cases hplaces : duplicate? [] (places files) with
  | some e =>
    rw [hplaces] at hloop
    rw [hloop]
    rfl
  | none =>
    rw [hplaces] at hloop
    obtain ⟨d, hd, hsymbols, hclasses, hnotes⟩ := hloop
    simp only [hd, hsymbols, hclasses, hnotes, List.nil_append, Keyed.ofList, ok_bind, pure_eq_ok]

theorem places_names (files : List FileSymbols) :
    (places files).map (·.1) = files.flatMap names := by
  unfold names
  simp [places, List.map_flatMap, Function.comp_def]

/-- No symbol is found twice exactly if all are distinct, also from those that were seen. -/
theorem duplicate?_eq_none_iff {seen symbols : List (String × String)}
    (hseen : (seen.map (·.1)).Nodup) :
    duplicate? seen symbols = none ↔ ((seen ++ symbols).map (·.1)).Nodup := by
  induction symbols generalizing seen with
  | nil => simpa [duplicate?] using hseen
  | cons symbol rest ih =>
    rw [duplicate?]
    cases hfind : seen.find? (·.1 == symbol.1) with
    | some other =>
      have hmem := List.mem_of_find?_eq_some hfind
      have hname : other.1 = symbol.1 := by simpa using List.find?_some hfind
      simp only [reduceCtorEq, false_iff, List.map_append, List.map_cons]
      intro hnodup
      have hdisjoint := (List.nodup_append.mp hnodup).2.2
      exact hdisjoint other.1 (List.mem_map_of_mem hmem) symbol.1 List.mem_cons_self hname
    | none =>
      have hnew : ∀ other ∈ seen, other.1 ≠ symbol.1 := by
        simpa [List.find?_eq_none] using hfind
      have hseen' : ((seen ++ [symbol]).map (·.1)).Nodup := by
        simpa [List.nodup_append, hseen] using hnew
      simpa using ih hseen'

theorem exists_merge_iff {files : List FileSymbols} :
    (∃ found, merge files = .ok found) ↔ (files.flatMap names).Nodup := by
  have hnone := @duplicate?_eq_none_iff [] (places files) .nil
  rw [List.nil_append, places_names] at hnone
  rw [← hnone, merge_eq]
  split <;> simp_all

/-- The error tells of the first symbol whose name was there before, and of the first symbol that
has this name. -/
theorem duplicate?_eq_some_iff {seen symbols : List (String × String)} {e : DuplicateSymbol}
    (hseen : (seen.map (·.1)).Nodup) :
    duplicate? seen symbols = some e ↔
      ∃ before first second after, symbols = before ++ second :: after ∧
        ((seen ++ before).map (·.1)).Nodup ∧
        (seen ++ before).find? (·.1 == second.1) = some first ∧
        e = ⟨second.1, first.2, second.2⟩ := by
  induction symbols generalizing seen with
  | nil => simp [duplicate?]
  | cons symbol rest ih =>
    rw [duplicate?]
    cases hfind : seen.find? (·.1 == symbol.1) with
    | some other =>
      have hmem := List.mem_of_find?_eq_some hfind
      have hname : other.1 = symbol.1 := by simpa using List.find?_some hfind
      constructor
      · intro h
        obtain rfl := Option.some.inj h
        exact ⟨[], other, symbol, rest, rfl, by simpa using hseen, by simpa using hfind, rfl⟩
      · rintro ⟨before, first, second, after, hsplit, hnodup, hfirst, rfl⟩
        cases before with
        | nil =>
          obtain ⟨rfl, -⟩ := List.cons.inj hsplit
          rw [List.append_nil, hfind] at hfirst
          rw [Option.some.inj hfirst]
        | cons repeated before =>
          -- the symbol itself repeats a name, so nothing later is the first to do so
          obtain ⟨rfl, -⟩ := List.cons.inj hsplit
          rw [List.map_append] at hnodup
          have hdisjoint := (List.nodup_append.mp hnodup).2.2
          exact absurd hname
            (hdisjoint other.1 (List.mem_map_of_mem hmem) symbol.1 List.mem_cons_self)
    | none =>
      have hnew : ∀ other ∈ seen, other.1 ≠ symbol.1 := by
        simpa [List.find?_eq_none] using hfind
      have hseen' : ((seen ++ [symbol]).map (·.1)).Nodup := by
        simpa [List.nodup_append, hseen] using hnew
      rw [ih hseen']
      constructor
      · rintro ⟨before, first, second, after, rfl, hnodup, hfirst, rfl⟩
        exact ⟨symbol :: before, first, second, after, rfl, by simpa using hnodup,
          by simpa using hfirst, rfl⟩
      · rintro ⟨before, first, second, after, hsplit, hnodup, hfirst, rfl⟩
        cases before with
        | nil =>
          obtain ⟨rfl, -⟩ := List.cons.inj hsplit
          rw [List.append_nil, hfind] at hfirst
          cases hfirst
        | cons next before =>
          obtain ⟨rfl, rfl⟩ := List.cons.inj hsplit
          exact ⟨before, first, second, after, rfl, by simpa using hnodup, by simpa using hfirst,
            rfl⟩

theorem nodup_entries_iff :
    ((entries files).map Prod.fst).Nodup ↔ (files.flatMap names).Nodup := by
  unfold entries names
  simp [List.map_flatMap, Function.comp_def]

theorem merge_eq_ok (h : merge files = .ok found) :
    (files.flatMap names).Nodup ∧
      found = {
        table := {
          symbols := Keyed.ofList (entries files)
          classes := (files.flatMap (·.classes)).foldl addClass [] }
        notes := files.flatMap (·.notes)
        filesScanned := files.length } := by
  refine ⟨exists_merge_iff.mp ⟨found, h⟩, ?_⟩
  rw [merge_eq] at h
  split at h
  · cases h
  · exact (Except.ok.inj h).symm

theorem merge_eq_error_iff {e : DuplicateSymbol} :
    merge files = .error e ↔ duplicate? [] (places files) = some e := by
  rw [merge_eq]
  split <;> simp_all

/-- The table of several files is in order. -/
theorem ordered_merge (h : merge files = .ok found) : found.table.Ordered := by
  obtain ⟨-, rfl⟩ := merge_eq_ok h
  exact ⟨Keyed.ascending_ofList _, ascending_foldl_addClass .nil _⟩

/-- A class is found with the parent that it is declared with first. -/
theorem get?_classes_merge (h : merge files = .ok found) (name : String) :
    Keyed.get? name found.table.classes =
      ((files.flatMap (·.classes)).find? (·.name == name)).map fun c => ⟨c.parent⟩ := by
  obtain ⟨-, rfl⟩ := merge_eq_ok h
  have hfold := Keyed.get?_foldl_insertNew DeclaredClass.name (fun c => ClassEntry.mk c.parent)
    (files.flatMap (·.classes)) [] name
  rwa [Keyed.get?_nil, Option.none_or] at hfold

end Extraction

end Availability
