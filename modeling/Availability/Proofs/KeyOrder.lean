import Availability.Extraction
import Mathlib.Data.String.Basic
import Mathlib.Tactic.Common

/-!
# Entries stay in order

Entries are put at their places, so lists that are built entry by entry have ascending keys, and so
have the tables that are extracted. A list with ascending keys is built again from its entries.
-/
namespace Availability

namespace Keyed

variable {α : Type} {entries : List (String × α)} {key : String} {value : α}

/-- Each key is greater than those before it. -/
def Ascending (entries : List (String × α)) : Prop :=
  entries.Pairwise fun a b => a.1 < b.1

instance (entries : List (String × α)) : Decidable (Ascending entries) :=
  inferInstanceAs (Decidable (List.Pairwise _ _))

theorem mem_insert {entry : String × α} (h : entry ∈ insert key value entries) :
    entry = (key, value) ∨ entry ∈ entries := by
  induction entries with
  | nil => simpa [insert] using h
  | cons first rest ih =>
    simp only [insert] at h
    split at h
    · simpa using h
    · split at h
      · rcases List.mem_cons.mp h with rfl | hrest
        · exact .inl rfl
        · exact .inr (List.mem_cons_of_mem _ hrest)
      · rcases List.mem_cons.mp h with rfl | hrest
        · exact .inr List.mem_cons_self
        · exact (ih hrest).imp id (List.mem_cons_of_mem _)

theorem Ascending.insert (h : Ascending entries) (key : String) (value : α) :
    Ascending (insert key value entries) := by
  induction entries with
  | nil => exact List.pairwise_singleton _ _
  | cons first rest ih =>
    obtain ⟨hfirst, hrest⟩ := List.pairwise_cons.mp h
    simp only [Keyed.insert]
    split
    · rename_i hlt
      refine List.pairwise_cons.mpr ⟨fun entry hentry => ?_, h⟩
      rcases List.mem_cons.mp hentry with rfl | hmem
      · exact hlt
      · exact hlt.trans (hfirst entry hmem)
    · split
      · rename_i heq
        exact List.pairwise_cons.mpr ⟨fun entry hentry => heq ▸ hfirst entry hentry, hrest⟩
      · rename_i hlt hne
        have hgt : first.1 < key := (lt_trichotomy first.1 key).resolve_right (by
          rintro (heq | hgt)
          · exact hne heq.symm
          · exact hlt hgt)
        refine List.pairwise_cons.mpr ⟨fun entry hentry => ?_, ih hrest⟩
        rcases mem_insert hentry with rfl | hmem
        · exact hgt
        · exact hfirst entry hmem

theorem Ascending.insertNew (h : Ascending entries) (key : String) (value : α) :
    Ascending (insertNew key value entries) := by
  unfold Keyed.insertNew
  split
  · exact h
  · exact h.insert key value

theorem Ascending.insertAll (h : Ascending entries) (more : List (String × α)) :
    Ascending (more.foldl (fun map entry => Keyed.insert entry.1 entry.2 map) entries) := by
  induction more generalizing entries with
  | nil => exact h
  | cons entry more ih => exact ih (h.insert entry.1 entry.2)

theorem ascending_ofList (entries : List (String × α)) : Ascending (ofList entries) :=
  Ascending.insertAll .nil entries

/-! ## Sets of names -/

/-- An entry with the greatest key is put at the end. -/
theorem insert_last (h : ∀ entry ∈ entries, entry.1 < key) :
    insert key value entries = entries ++ [(key, value)] := by
  induction entries with
  | nil => rfl
  | cons first rest ih =>
    have hfirst := h first List.mem_cons_self
    have hrest := ih fun entry hentry => h entry (List.mem_cons_of_mem first hentry)
    simp [insert, hfirst.asymm, hfirst.ne', hrest]

/-- Entries that go on in order are put one after another at the end. -/
theorem insertAll_of_ascending {more : List (String × α)} (h : Ascending (entries ++ more)) :
    more.foldl (fun map entry => insert entry.1 entry.2 map) entries = entries ++ more := by
  induction more generalizing entries with
  | nil => simp
  | cons entry more ih =>
    have hlast : ∀ other ∈ entries, other.1 < entry.1 := fun other hother =>
      (List.pairwise_append.mp h).2.2 other hother entry List.mem_cons_self
    have hmore : Ascending (entries ++ [entry] ++ more) := by simpa using h
    rw [List.foldl_cons, insert_last hlast, ih hmore]
    simp

theorem ofList_of_ascending (h : Ascending entries) : ofList entries = entries :=
  @insertAll_of_ascending α [] entries h

end Keyed

/-- The symbols and the classes stand in the order of their names, each name once. -/
structure SymbolTable.Ordered (table : SymbolTable) : Prop where
  symbols : Keyed.Ascending table.symbols
  classes : Keyed.Ascending table.classes

namespace Extraction

theorem ascending_foldl_addClass {classes : List (String × ClassEntry)}
    (h : Keyed.Ascending classes) (found : List DeclaredClass) :
    Keyed.Ascending (found.foldl addClass classes) := by
  induction found generalizing classes with
  | nil => exact h
  | cons c found ih => exact ih (h.insertNew c.name ⟨c.parent⟩)

end Extraction

end Availability
