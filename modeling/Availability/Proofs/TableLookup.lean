import Availability.Proofs.ByteOrder
import Availability.Proofs.Collation

/-!
# What a name is found under

A name is found under itself if the table has it. Otherwise it is found under the first of the names
that differ from it in the case of letters only, first by bytes, however many of them there are: the
index that is built with the table leads to this one.
-/
namespace Availability

/-- Of the entries whose keys pass a test, the one with the least key is found. -/
theorem Keyed.Ascending.find?_eq_some_iff {α : Type} {entries : List (String × α)}
    (h : Ascending entries) {test : String → Bool} {found : String × α} :
    entries.find? (fun entry => test entry.1) = some found ↔
      found ∈ entries ∧ test found.1 = true ∧
        ∀ other ∈ entries, test other.1 = true → other = found ∨ found.1 < other.1 := by
  have first {found : String × α}
      (hfound : entries.find? (fun entry => test entry.1) = some found) :
      found ∈ entries ∧ test found.1 = true ∧
        ∀ other ∈ entries, test other.1 = true → other = found ∨ found.1 < other.1 := by
    obtain ⟨htest, before, after, rfl, hbefore⟩ := List.find?_eq_some_iff_append.mp hfound
    refine ⟨List.mem_of_find?_eq_some hfound, htest, fun other hother hpasses => ?_⟩
    rcases List.mem_append.mp hother with hother | hother
    · exact absurd hpasses (by simpa using hbefore other hother)
    · rcases List.mem_cons.mp hother with rfl | hother
      · exact .inl rfl
      · have hafter := (List.pairwise_append.mp h).2.1
        exact .inr (List.rel_of_pairwise_cons hafter hother)
  refine ⟨first, ?_⟩
  rintro ⟨hmem, htest, hleast⟩
  cases hfind : entries.find? fun entry => test entry.1 with
  | none => exact absurd htest (List.find?_eq_none.mp hfind found hmem)
  | some least =>
    obtain ⟨hleastMem, hleastTest, hbelow⟩ := first hfind
    rcases hleast least hleastMem hleastTest with rfl | hlt
    · rfl
    · rcases hbelow found hmem htest with rfl | hgt
      · rfl
      · exact absurd hlt hgt.asymm

namespace SymbolTable

variable {table : SymbolTable} {name : String} {found : String × SymbolEntry}

theorem find?_eq_none_iff :
    table.find? name = none ↔ ∀ entry ∈ table.symbols, Text.lower entry.1 ≠ Text.lower name := by
  rw [find?_eq_first, Keyed.get?]
  cases hexact : table.symbols.find? (·.1 == name) with
  | none => simp
  | some found =>
    have hname : found.1 = name := by simpa using List.find?_some hexact
    simp only [Option.map_some, reduceCtorEq, false_iff, not_forall, not_not]
    exact ⟨found, List.mem_of_find?_eq_some hexact, by rw [hname]⟩

theorem find?_of_exact (h : Keyed.Ascending table.symbols) {entry : SymbolEntry}
    (hentry : (name, entry) ∈ table.symbols) : table.find? name = some (name, entry) := by
  have hget := (Keyed.get?_eq_some_iff h.nodup_keys).mpr hentry
  simp only [find?, hget]

/-- The index has small letters exactly if they are those of some name, and it leads from them to
the first name that has them. -/
theorem get?_folded_eq_some_iff (h : Keyed.Ascending table.symbols) {letters key : String} :
    Keyed.get? letters table.folded = some key ↔
      ∃ first ∈ table.symbols, first.1 = key ∧ Text.lower first.1 = letters ∧
        ∀ other ∈ table.symbols, Text.lower other.1 = letters →
          other = first ∨ first.1 < other.1 := by
  have hleast (first : String × SymbolEntry) :=
    @Keyed.Ascending.find?_eq_some_iff _ _ h (Text.lower · == letters) first
  simp only [beq_iff_eq] at hleast
  rw [table.folded_eq, get?_foldNames, Option.map_eq_some_iff]
  simp only [hleast]
  constructor
  · rintro ⟨first, ⟨hmem, hletters, hfirst⟩, hkey⟩
    exact ⟨first, hmem, hkey, hletters, hfirst⟩
  · rintro ⟨first, hmem, hkey, hletters, hfirst⟩
    exact ⟨first, ⟨hmem, hletters, hfirst⟩, hkey⟩

theorem find?_of_not_exact (h : Keyed.Ascending table.symbols)
    (hname : name ∉ table.symbols.map Prod.fst) :
    table.find? name = some found ↔
      found ∈ table.symbols ∧ Text.lower found.1 = Text.lower name ∧
        ∀ other ∈ table.symbols, Text.lower other.1 = Text.lower name →
          other = found ∨ found.1 < other.1 := by
  have hget : Keyed.get? name table.symbols = none := by
    rw [Option.eq_none_iff_forall_ne_some]
    intro entry hentry
    exact hname (List.mem_map_of_mem ((Keyed.get?_eq_some_iff h.nodup_keys).mp hentry))
  have hindexed : table.find? name = some found ↔
      Keyed.get? (Text.lower name) table.folded = some found.1 ∧ found ∈ table.symbols := by
    obtain ⟨key, entry⟩ := found
    simp [find?, hget, Option.bind_eq_some_iff, ← Keyed.get?_eq_some_iff h.nodup_keys]
  rw [hindexed, get?_folded_eq_some_iff h]
  constructor
  · rintro ⟨⟨first, hmem, hkey, hletters, hfirst⟩, hfound⟩
    obtain rfl := List.inj_on_of_nodup_map h.nodup_keys hmem hfound hkey
    exact ⟨hmem, hletters, hfirst⟩
  · rintro ⟨hmem, hletters, hfirst⟩
    exact ⟨⟨found, hmem, rfl, hletters, hfirst⟩, hmem⟩

/-- A name that the table has is found under itself. Any other name is found under the first, by
bytes, of the names that are equal to it up to the case of letters, and only if there is one. What
is found is in the table, and its name is equal to the one that was looked for up to case. -/
theorem find?_exact_then_least (h : Keyed.Ascending table.symbols) (name : String) :
    (∀ entry, (name, entry) ∈ table.symbols → table.find? name = some (name, entry)) ∧
      (name ∉ table.symbols.map Prod.fst → ∀ found, table.find? name = some found ↔
        found ∈ table.symbols ∧ Text.lower found.1 = Text.lower name ∧
          ∀ other ∈ table.symbols, Text.lower other.1 = Text.lower name →
            other = found ∨ Text.encode found.1 < Text.encode other.1) ∧
      (table.find? name = none ↔
        ∀ entry ∈ table.symbols, Text.lower entry.1 ≠ Text.lower name) ∧
      ∀ found, table.find? name = some found →
        found ∈ table.symbols ∧ Text.lower found.1 = Text.lower name := by
  refine ⟨fun entry => find?_of_exact h, fun hname found => ?_, find?_eq_none_iff,
    fun found hfound => ?_⟩
  · simp only [find?_of_not_exact h hname, Text.encode_lt_iff]
  · by_cases hname : name ∈ table.symbols.map Prod.fst
    · obtain ⟨⟨_, entry⟩, hentry, rfl⟩ := List.mem_map.mp hname
      rw [find?_of_exact h hentry, Option.some.injEq] at hfound
      exact ⟨hfound ▸ hentry, hfound ▸ rfl⟩
    · obtain ⟨hmem, hlower, -⟩ := (find?_of_not_exact h hname).mp hfound
      exact ⟨hmem, hlower⟩

/-- A table with a name in several spellings. -/
def respelled : SymbolTable where
  symbols := [
    ("WP_New", ⟨⟨6, 1, 0⟩, none⟩), ("Wp_New", ⟨⟨6, 2, 0⟩, none⟩), ("wp_new", ⟨⟨6, 3, 0⟩, none⟩)]

/-- One of the spellings is found under itself, another one under the first of them. -/
theorem find?_exact_then_least_respelled :
    Keyed.Ascending respelled.symbols ∧
      respelled.find? "wp_new" = some ("wp_new", ⟨⟨6, 3, 0⟩, none⟩) ∧
      respelled.find? "wp_NEW" = some ("WP_New", ⟨⟨6, 1, 0⟩, none⟩) ∧
      respelled.find? "wp_neu" = none := by
  have hordered : Keyed.Ascending respelled.symbols := by decide
  refine ⟨hordered, ?_, ?_, ?_⟩
  · exact (find?_exact_then_least hordered "wp_new").1 _ (by decide)
  · refine ((find?_exact_then_least hordered "wp_NEW").2.1 (by decide) _).mpr ?_
    simp only [Text.encode_lt_iff]
    decide
  · exact (find?_exact_then_least hordered "wp_neu").2.2.1.mpr (by decide)

end SymbolTable

end Availability
