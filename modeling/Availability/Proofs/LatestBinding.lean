import Availability.Proofs.Bindings

/-!
# A variable has the classes of its latest binding

The walk carries one scope along, which it replaces in functions, copies for arrow functions and
changes at bindings. By places and moments: what is known of a variable at a node is what the last
binding before has given to it, among those that can be seen from there. The invariant of the walk
is that its scope knows just this of the place it is at; a function is entered with a scope that
knows nothing yet, and left with the scope that was there before.
-/
namespace Availability

open Php

/-- A scope knows of each variable the latest binding that can be seen. -/
def Knows (tree : Node) (p : Path) (log : List Binding) (s : Scope) : Prop :=
  ∀ x, x ≠ "this" → s.classesOf x = (latest? tree p x log).elim [] (·.classes)

/-- The walk has not been below a place. -/
def Ahead (log : List Binding) (p : Path) : Prop :=
  ∀ b ∈ log, ¬Encloses p b.place

section Knowledge

variable {tree n : Node} {p q path : Path} {log more within : List Binding} {s : Scope}
  {w done : Walker} {first rest : List Moment}

theorem Knows.congr (h : Knows tree p log s)
    (hvisible : ∀ b ∈ log, Visible tree q b ↔ Visible tree p b) : Knows tree q log s := by
  intro x hx
  rw [h x hx, latest?_congr hvisible]

/-- What cannot be seen changes nothing. -/
theorem Knows.append_hidden (h : Knows tree p log s) (hhidden : ∀ b ∈ more, ¬Visible tree p b) :
    Knows tree p (log ++ more) s := by
  intro x hx
  rw [h x hx, latest?_append, latest?_eq_none hhidden, Option.none_or]

/-- Binding what can be seen. -/
theorem Knows.bindAll (h : Knows tree p log s) (hvisible : ∀ b ∈ more, Visible tree p b) :
    Knows tree p (log ++ more) (s.bindAll more) := by
  intro x hx
  rw [Scope.classesOf_bindAll hx hvisible, h x hx, latest?_append]
  cases latest? tree p x more <;> rfl

theorem Ahead.append (h : Ahead log p) (hmore : Ahead more p) : Ahead (log ++ more) p := by
  intro b hb
  exact (List.mem_append.mp hb).elim (h b) (hmore b)

/-- On entering a node its own bindings are not below its children. -/
theorem Ahead.enter (h : Ahead log path) (here : Walker) (i : Nat) :
    Ahead (log ++ (⟨path, n, here⟩ : Visit).arrivalBindings) (path ++ [i]) := by
  refine Ahead.append (fun b hb hencloses => h b hb hencloses.of_concat) fun b hb hencloses => ?_
  rcases Visit.place_of_mem_arrivalBindings hb with hplace | ⟨k, hplace⟩
  · exact (hplace ▸ hencloses.of_concat).2 rfl
  · have heq := hencloses.1.eq_of_length (by simp [hplace])
    exact hencloses.2 heq

theorem ownScope_classesOf {x : String} (hx : x ≠ "this") : (w.ownScope n).classesOf x = [] := by
  unfold Walker.ownScope
  split <;> simp [Scope.classesOf, hx]

/-- A node that is no function sees what its children see. -/
theorem visible_concat_of_manner (hn : tree.at? path = some n) {b : Binding} {i : Nat}
    (hkind : ¬(n.kind.manner = .function ∨ n.kind.manner = .arrow)) :
    Visible tree (path ++ [i]) b ↔ Visible tree path b := by
  rw [Kind.manner_eq_function, Kind.manner_eq_arrow, not_or] at hkind
  exact visible_concat hn hkind.1 hkind.2

/-- Entering a node: a function sees nothing but its own bindings, an arrow function and a `catch`
see theirs in addition to the others. -/
theorem Knows.enter (h : Knows tree path log w.scope) (hn : tree.at? path = some n)
    (hlog : Ahead log path) (i : Nat) :
    Knows tree (path ++ [i]) (log ++ (⟨path, n, w.observe n⟩ : Visit).arrivalBindings)
      (w.entered n).scope := by
  have hpassing (hkind : ¬(n.kind.manner = .function ∨ n.kind.manner = .arrow)) :
      Knows tree (path ++ [i]) log w.scope :=
    h.congr fun b _ => visible_concat_of_manner hn hkind
  have hinside (hkind : n.kind.manner = .function ∨ n.kind.manner = .arrow) :
      ∀ b ∈ (⟨path, n, w.observe n⟩ : Visit).arrivalBindings, Visible tree (path ++ [i]) b := by
    intro b hb
    obtain ⟨k, hplace⟩ := Visit.exists_place_of_function hb hkind
    exact visible_child hn hplace
  cases hm : n.kind.manner with
  | function =>
    have hown : Knows tree (path ++ [i]) log (w.ownScope n) := by
      intro x hx
      rw [ownScope_classesOf hx, latest?_eq_none fun b hb =>
        not_visible_concat_of_function hn (Kind.manner_eq_function.mp hm) (hlog b hb)]
      rfl
    have hbound := hown.bindAll (hinside (.inl hm))
    rw [Walker.observe_of_manner (by simp [hm])] at hbound ⊢
    rw [Walker.entered_of_function hm]
    simp only [Visit.arrivalBindings, hm] at hbound ⊢
    rwa [← Walker.functionScope_eq] at hbound
  | arrow =>
    have houter : Knows tree (path ++ [i]) log w.scope :=
      h.congr fun b hb => visible_concat_of_arrow hn (Kind.manner_eq_arrow.mp hm) (hlog b hb)
    have hbound := houter.bindAll (hinside (.inr hm))
    rw [Walker.observe_of_manner (by simp [hm])] at hbound ⊢
    simp only [Visit.arrivalBindings, Walker.entered, hm] at hbound ⊢
    rwa [← Walker.bindParameters_eq path (.refl _)] at hbound
  | handler =>
    rw [Walker.observe_of_manner (by simp [hm])]
    simp only [Visit.arrivalBindings, Walker.entered, hm]
    rw [Walker.recordCatch_scope path]
    refine (hpassing (by simp [hm])).bindAll fun b hb => ?_
    rw [visible_concat_of_manner hn (by simp [hm])]
    exact visible_self (Binding.place_of_mem_handler hb)
  | classLike =>
    simpa [Visit.arrivalBindings, Walker.entered, hm] using hpassing (by simp [hm])
  | conditional =>
    simpa [Visit.arrivalBindings, Walker.entered, hm] using hpassing (by simp [hm])
  | assignment =>
    simpa [Visit.arrivalBindings, Walker.entered, hm] using hpassing (by simp [hm])
  | plain =>
    simpa [Visit.arrivalBindings, Walker.entered, hm] using hpassing (by simp [hm])

/-- Leaving a node: what was bound within a function goes with its scope, and an assignment is
complete. -/
theorem Knows.leave (h : Knows tree path log w.scope) (hn : tree.at? path = some n)
    (hwithin : n.kind.manner = .function ∨ n.kind.manner = .arrow →
      ∀ b ∈ within, Encloses path b.place)
    (hdone : Knows tree (path ++ [0]) (log ++ within) (w.toured path n).scope) :
    Knows tree path (log ++ within ++ (⟨path, n, w.observe n⟩ : Visit).departureBindings)
      (w.left n (w.toured path n)).scope := by
  by_cases hkind : n.kind.manner = .function ∨ n.kind.manner = .arrow
  · have hbefore : Knows tree path (log ++ within) w.scope := by
      refine h.append_hidden fun b hb => not_visible_of_encloses hn ?_ (hwithin hkind b hb)
      rwa [← Kind.manner_eq_function, ← Kind.manner_eq_arrow]
    rcases hkind with hm | hm <;> simpa [Visit.departureBindings, Walker.left, hm] using hbefore
  · have hafter : Knows tree path (log ++ within) (w.toured path n).scope :=
      hdone.congr fun b _ => (visible_concat_of_manner hn hkind).symm
    cases hm : n.kind.manner with
    | assignment =>
      rw [Walker.observe_of_manner (by simp [hm])]
      have htoured : w.toured path n = (Walker.visitEach path n.named w).1 := by
        simp [Walker.toured, Walker.entered, hm, Walker.observe_of_manner]
      have hvisible : ∀ b ∈ Binding.assignment path n (w.toured path n).scope,
          Visible tree path b :=
        fun b hb => visible_self (Binding.place_of_mem_assignment hb)
      have hbound := hafter.bindAll hvisible
      intro x hx
      simp only [Visit.departureBindings, Walker.left, hm, ← htoured]
      rw [Walker.classesOf_recordAssignment path _ n hx]
      exact hbound x hx
    | function => exact absurd (.inl hm) hkind
    | arrow => exact absurd (.inr hm) hkind
    | handler => simpa [Visit.departureBindings, Walker.left, hm] using hafter
    | classLike => simpa [Visit.departureBindings, Walker.left, hm] using hafter
    | conditional => simpa [Visit.departureBindings, Walker.left, hm] using hafter
    | plain => simpa [Visit.departureBindings, Walker.left, hm] using hafter

end Knowledge

namespace Walker

variable {tree n : Node} {path : Path} {log : List Binding} {places : List Nat} {w done : Walker}
  {visits : List Visit}

end Walker

end Availability
