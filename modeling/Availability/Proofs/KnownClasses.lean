import Availability.Classes
import Mathlib.Data.List.Nodup

/-!
# What is found among classes

Adding classes one after another keeps the first of each name. What is said about ancestors depends
only on what is found under which name, not on the order in which classes were added.
-/
namespace Availability

namespace Classes

variable {a b : Classes}

theorem find?_congr (classes : Classes) {name name' : String}
    (h : Text.lower name = Text.lower name') : classes.find? name = classes.find? name' := by
  simp only [find?, Text.sameLetters, h]

theorem find?_insert (classes : Classes) (added : ClassRecord) (name : String) :
    (classes.insert added.name added.parent).1.find? name =
      (classes.find? name).or ([added].find? fun record => Text.sameLetters record.name name) := by
  unfold insert
  split
  · rename_i hknown
    by_cases hname : Text.sameLetters added.name name = true
    · rw [classes.find?_congr (by simpa using hname)] at hknown
      rw [Option.or_of_isSome hknown]
    · simp [hname]
  · exact List.find?_append

/-- A class is found where the first one of its name stands. -/
theorem find?_insertAll (classes : Classes) (declared : List ClassRecord) (name : String) :
    (classes.insertAll declared).find? name =
      (classes.find? name).or (declared.find? fun record => Text.sameLetters record.name name) := by
  induction declared generalizing classes with
  | nil => simp [insertAll]
  | cons added declared ih =>
    have hrest := ih (classes.insert added.name added.parent).1
    rw [find?_insert, Option.or_assoc, ← List.find?_append] at hrest
    exact hrest

/-- No two classes have names that differ in the case of letters only. -/
def Distinct (classes : Classes) : Prop :=
  (classes.records.map fun record => Text.lower record.name).Nodup

theorem Distinct.empty : Distinct {} :=
  List.nodup_nil

theorem isSome_find?_iff {classes : Classes} {name : String} :
    (classes.find? name).isSome = true ↔
      Text.lower name ∈ classes.records.map fun record => Text.lower record.name := by
  simp [find?]

theorem Distinct.insert {classes : Classes} (h : classes.Distinct) (name : String)
    (parent : Option String) : (classes.insert name parent).1.Distinct := by
  unfold Classes.insert
  split
  · exact h
  · rename_i hnew
    rw [isSome_find?_iff] at hnew
    simp only [Distinct, List.map_append, List.map_singleton]
    exact List.nodup_append.mpr ⟨h, List.nodup_singleton _, by grind⟩

theorem Distinct.insertAll {classes : Classes} (h : classes.Distinct)
    (declared : List ClassRecord) : (classes.insertAll declared).Distinct := by
  induction declared generalizing classes with
  | nil => exact h
  | cons added declared ih => exact ih (h.insert added.name added.parent)

/-- Classes in which the same is found are equally many. -/
theorem Distinct.size_eq (ha : a.Distinct) (hb : b.Distinct)
    (h : ∀ name, a.find? name = b.find? name) : a.size = b.size := by
  have hnames : (a.records.map fun record => Text.lower record.name).Perm
      (b.records.map fun record => Text.lower record.name) := by
    refine (List.perm_ext_iff_of_nodup ha hb).mpr fun lowered => ?_
    constructor
    · intro hmem
      obtain ⟨record, hrecord, rfl⟩ := List.mem_map.mp hmem
      rwa [← isSome_find?_iff, ← h, isSome_find?_iff]
    · intro hmem
      obtain ⟨record, hrecord, rfl⟩ := List.mem_map.mp hmem
      rwa [← isSome_find?_iff, h, isSome_find?_iff]
  simpa [size] using hnames.length_eq

theorem chain_congr (h : ∀ name, a.find? name = b.find? name) (steps : Nat) (seen : List String)
    (record : ClassRecord) : a.chain steps seen record = b.chain steps seen record := by
  induction steps generalizing seen record with
  | zero => rfl
  | succ steps ih => simp only [chain, h, ih]

/-- Ancestors depend only on what is found. -/
theorem ancestors?_of_find? (ha : a.Distinct) (hb : b.Distinct)
    (h : ∀ name, a.find? name = b.find? name) (name : String) :
    a.ancestors? name = b.ancestors? name := by
  simp only [ancestors?, h, ha.size_eq hb h, chain_congr h]

/-- What is looked up in depends only on what is found. -/
theorem probeOrder_congr (ha : a.Distinct) (hb : b.Distinct)
    (h : ∀ name, a.find? name = b.find? name) : a.probeOrder = b.probeOrder := by
  funext names
  simp only [probeOrder, ancestors?_of_find? ha hb h]

end Classes

end Availability
