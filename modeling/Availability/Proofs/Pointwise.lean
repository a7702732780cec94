import Mathlib.Data.List.Forall2
import Mathlib.Tactic.Common

/-!
# Lists and options that are related pointwise

What list functions give for lists whose members are related one by one. `Option.Rel` relates
options: both are missing, or both are there and related.
-/
namespace Availability

variable {α β γ δ : Type} {R : α → β → Prop}

section Options

variable {a : Option α} {b : Option β}

theorem rel_cases (h : Option.Rel R a b) :
    (a = none ∧ b = none) ∨ ∃ x y, a = some x ∧ b = some y ∧ R x y := by
  cases h with
  | none => exact .inl ⟨rfl, rfl⟩
  | some h => exact .inr ⟨_, _, rfl, rfl, h⟩

theorem rel_refl {P : α → α → Prop} (hP : ∀ x, P x x) (a : Option α) : Option.Rel P a a := by
  cases a with
  | none => exact .none
  | some x => exact .some (hP x)

theorem rel_map {P : γ → δ → Prop} {f : α → γ} {g : β → δ} (h : Option.Rel R a b)
    (hfg : ∀ x y, R x y → P (f x) (g y)) : Option.Rel P (a.map f) (b.map g) := by
  cases h with
  | none => exact .none
  | some h => exact .some (hfg _ _ h)

theorem rel_imp {P : α → β → Prop} (h : Option.Rel R a b) (hRP : ∀ x y, R x y → P x y) :
    Option.Rel P a b := by
  simpa using rel_map (f := fun x => x) (g := fun y => y) h hRP

theorem rel_of_map_eq {f : α → γ} {a b : Option α} (h : a.map f = b.map f) :
    Option.Rel (fun x y => f x = f y) a b := by
  cases a with
  | none =>
    obtain rfl : b = none := by simpa using h.symm
    exact .none
  | some x =>
    obtain ⟨y, rfl, hy⟩ := Option.map_eq_some_iff.mp h.symm
    exact .some hy.symm

theorem rel_bind_eq {f : α → Option γ} {g : β → Option γ} (h : Option.Rel R a b)
    (hfg : ∀ x y, R x y → f x = g y) : a.bind f = b.bind g := by
  cases h with
  | none => rfl
  | some h => exact hfg _ _ h

theorem rel_bind_map {f : α → Option γ} {g : β → Option γ} {k : γ → δ} (h : Option.Rel R a b)
    (hfg : ∀ x y, R x y → (f x).map k = (g y).map k) : (a.bind f).map k = (b.bind g).map k := by
  rw [Option.map_bind, Option.map_bind]
  exact rel_bind_eq h hfg

end Options

section Lists

variable {as : List α} {bs : List β}

theorem forall₂_of_getElem? (h : ∀ i : Nat, Option.Rel R as[i]? bs[i]?) : List.Forall₂ R as bs := by
  induction as generalizing bs with
  | nil =>
    cases bs with
    | nil => exact .nil
    | cons b bs => exact absurd (h 0) nofun
  | cons a as ih =>
    cases bs with
    | nil => exact absurd (h 0) nofun
    | cons b bs =>
      obtain ⟨x, y, hx, hy, hab⟩ := (rel_cases (h 0)).resolve_left nofun
      cases hx
      cases hy
      exact .cons hab (ih fun i => h (i + 1))

theorem rel_getElem? (h : List.Forall₂ R as bs) (i : Nat) : Option.Rel R as[i]? bs[i]? := by
  induction h generalizing i with
  | nil => exact .none
  | cons hab _ ih =>
    cases i with
    | zero => exact .some hab
    | succ i => exact ih i

theorem forall₂_of_map_eq {f : α → γ} {as bs : List α} (h : as.map f = bs.map f) :
    List.Forall₂ (fun a b => f a = f b) as bs := by
  apply forall₂_of_getElem?
  intro i
  apply rel_of_map_eq
  rw [← List.getElem?_map, h, List.getElem?_map]

/-- Members at the same position that are related stay so when they are given their positions. -/
theorem forall₂_zipIdx {P : Nat → α → β → Prop} (h : ∀ i, Option.Rel (P i) as[i]? bs[i]?) :
    List.Forall₂ (fun a b => a.2 = b.2 ∧ P a.2 a.1 b.1) as.zipIdx bs.zipIdx := by
  apply forall₂_of_getElem?
  intro i
  rw [List.getElem?_zipIdx, List.getElem?_zipIdx]
  refine rel_map (h i) fun x y hxy => ⟨rfl, ?_⟩
  simpa using hxy

theorem rel_find? {p : α → Bool} {q : β → Bool} (h : List.Forall₂ R as bs)
    (hpq : ∀ a b, R a b → p a = q b) : Option.Rel R (as.find? p) (bs.find? q) := by
  induction h with
  | nil => exact .none
  | @cons a b as bs hab h ih =>
    rw [List.find?_cons, List.find?_cons, hpq a b hab]
    cases q b with
    | true => exact .some hab
    | false => exact ih

theorem rel_filter_of_eq {p : α → Bool} {q : β → Bool} (h : List.Forall₂ R as bs)
    (hpq : ∀ a b, R a b → p a = q b) : List.Forall₂ R (as.filter p) (bs.filter q) := by
  refine List.rel_filter (fun a b hab => ?_) h
  simp only [hpq a b hab]

theorem rel_head? (h : List.Forall₂ R as bs) : Option.Rel R as.head? bs.head? := by
  rw [List.head?_eq_getElem?, List.head?_eq_getElem?]
  exact rel_getElem? h 0

theorem rel_getLast? (h : List.Forall₂ R as bs) : Option.Rel R as.getLast? bs.getLast? := by
  rw [List.getLast?_eq_head?_reverse, List.getLast?_eq_head?_reverse]
  exact rel_head? (List.rel_reverse h)

theorem rel_any {p : α → Bool} {q : β → Bool} (h : List.Forall₂ R as bs)
    (hpq : ∀ a b, R a b → p a = q b) : as.any p = bs.any q := by
  induction h with
  | nil => rfl
  | cons hab _ ih => rw [List.any_cons, List.any_cons, hpq _ _ hab, ih]

theorem rel_flatMap_eq {f : α → List γ} {g : β → List γ} (h : List.Forall₂ R as bs)
    (hfg : ∀ a b, R a b → f a = g b) : as.flatMap f = bs.flatMap g := by
  induction h with
  | nil => rfl
  | cons hab _ ih => rw [List.flatMap_cons, List.flatMap_cons, hfg _ _ hab, ih]

theorem rel_filterMap_eq {f : α → Option γ} {g : β → Option γ} (h : List.Forall₂ R as bs)
    (hfg : ∀ a b, R a b → f a = g b) : as.filterMap f = bs.filterMap g := by
  induction h with
  | nil => rfl
  | cons hab _ ih => rw [List.filterMap_cons, List.filterMap_cons, hfg _ _ hab, ih]

theorem rel_findSome? {f : α → Option γ} {g : β → Option γ} {k : γ → δ}
    (h : List.Forall₂ R as bs) (hfg : ∀ a b, R a b → (f a).map k = (g b).map k) :
    (as.findSome? f).map k = (bs.findSome? g).map k := by
  induction h with
  | nil => rfl
  | @cons a b as bs hab _ ih =>
    rw [List.findSome?_cons, List.findSome?_cons]
    rcases rel_cases (rel_of_map_eq (f := k) (hfg a b hab)) with
      ⟨hnone, hnone'⟩ | ⟨x, y, hx, hy, hxy⟩
    · rw [hnone, hnone']
      exact ih
    · rw [hx, hy]
      exact congrArg some hxy

end Lists

end Availability
