import Availability.Proofs.Traversal

/-!
# What is around a place

The nodes of certain kinds around a place in a tree, listed from the outside in. Going down to a
child adds at most the node itself, so that what a walk keeps on its way down can be compared with
this list step by step.
-/
namespace Availability

open Php

/-- A place is strictly above another. -/
def Encloses (p q : Path) : Prop :=
  p <+: q ∧ p ≠ q

theorem Encloses.of_concat {p q : Path} {i : Nat} (h : Encloses (p ++ [i]) q) : Encloses p q := by
  have hp := (List.prefix_append p [i]).trans h.1
  refine ⟨hp, fun heq => ?_⟩
  have hle := h.1.length_le
  rw [List.length_append, List.length_singleton, heq] at hle
  omega

namespace Php.Node

variable {tree n : Node} {is : Kind → Bool} {p q : Path}

/-- The places of the nodes of certain kinds around a place, outermost first. -/
def around (tree : Node) (is : Kind → Bool) (p : Path) : List Path :=
  ((List.range p.length).map fun k => p.take k).filter fun q =>
    (tree.at? q).any fun n => is n.kind

/-- The place of the innermost node of certain kinds around a place. -/
def innermost? (tree : Node) (is : Kind → Bool) (p : Path) : Option Path :=
  (tree.around is p).getLast?

theorem around_concat (hn : tree.at? p = some n) (i : Nat) :
    tree.around is (p ++ [i]) = tree.around is p ++ if is n.kind = true then [p] else [] := by
  have htake : (List.range p.length).map (fun k => (p ++ [i]).take k) =
      (List.range p.length).map fun k => p.take k := by
    refine List.map_congr_left fun k hk => ?_
    rw [List.take_append_of_le_length (Nat.le_of_lt (List.mem_range.mp hk))]
  unfold around
  rw [List.length_append, List.length_singleton, List.range_succ, List.map_append, htake,
    List.map_singleton, List.take_left, List.filter_append]
  simp [List.filter_cons, hn]

theorem mem_around_iff :
    q ∈ tree.around is p ↔ Encloses q p ∧ ∃ n, tree.at? q = some n ∧ is n.kind = true := by
  have htaken : (∃ k < p.length, p.take k = q) ↔ Encloses q p := by
    constructor
    · rintro ⟨k, hk, rfl⟩
      refine ⟨List.take_prefix k p, fun heq => ?_⟩
      have := congrArg List.length heq
      rw [List.length_take] at this
      omega
    · rintro ⟨hq, hne⟩
      refine ⟨q.length, lt_of_le_of_ne hq.length_le fun heq => hne (hq.eq_of_length heq), ?_⟩
      exact (List.prefix_iff_eq_take.mp hq).symm
  simp only [around, List.mem_filter, List.mem_map, List.mem_range, htaken, Option.any_eq_true]

theorem not_mem_around_self : p ∉ tree.around is p := by
  intro h
  exact (mem_around_iff.mp h).1.2 rfl

/-- What is further out comes first. -/
theorem pairwise_around (tree : Node) (is : Kind → Bool) (p : Path) :
    (tree.around is p).Pairwise (· <+: ·) := by
  refine List.Pairwise.sublist List.filter_sublist (List.pairwise_map.mpr ?_)
  exact List.pairwise_lt_range.imp fun hlt => List.take_prefix_take_left (Nat.le_of_lt hlt)

theorem innermost?_nil : tree.innermost? is [] = none :=
  rfl

theorem innermost?_concat (hn : tree.at? p = some n) (i : Nat) :
    tree.innermost? is (p ++ [i]) = if is n.kind = true then some p else tree.innermost? is p := by
  rw [innermost?, around_concat hn]
  split
  · exact List.getLast?_concat
  · rw [List.append_nil, innermost?]

theorem mem_around_of_innermost? (h : tree.innermost? is p = some q) : q ∈ tree.around is p :=
  List.mem_of_getLast? h

/-- The innermost node has all the others around it. -/
theorem isPrefix_of_innermost? {r : Path} (h : tree.innermost? is p = some q)
    (hr : r ∈ tree.around is p) : r <+: q := by
  obtain ⟨outer, houter⟩ := List.getLast?_eq_some_iff.mp h
  have hpairwise := tree.pairwise_around is p
  rw [houter] at hr hpairwise
  rcases List.mem_append.mp hr with hr | hr
  · exact (List.pairwise_append.mp hpairwise).2.2 r hr q (List.mem_singleton_self q)
  · obtain rfl := List.mem_singleton.mp hr
    exact List.prefix_rfl

theorem innermost?_eq_some_iff :
    tree.innermost? is p = some q ↔
      q ∈ tree.around is p ∧ ∀ r ∈ tree.around is p, r <+: q := by
  constructor
  · intro h
    exact ⟨mem_around_of_innermost? h, fun r hr => isPrefix_of_innermost? h hr⟩
  · rintro ⟨hq, hall⟩
    cases hr : tree.innermost? is p with
    | none => exact absurd (List.getLast?_eq_none_iff.mp hr) (List.ne_nil_of_mem hq)
    | some r =>
      have hrq := hall r (mem_around_of_innermost? hr)
      have hqr := isPrefix_of_innermost? hr hq
      rw [hrq.eq_of_length (Nat.le_antisymm hrq.length_le hqr.length_le)]

/-- What is below a node of the kinds has another innermost one around it than the node. -/
theorem innermost?_ne_of_mem_around (h : p ∈ tree.around is q) :
    tree.innermost? is q ≠ tree.innermost? is p := by
  intro heq
  cases hq : tree.innermost? is q with
  | none => exact List.ne_nil_of_mem h (List.getLast?_eq_none_iff.mp hq)
  | some r =>
    obtain ⟨⟨hrp, hne⟩, -⟩ := mem_around_iff.mp (mem_around_of_innermost? (heq ▸ hq))
    have hpr := isPrefix_of_innermost? hq h
    exact hne (hrp.eq_of_length (Nat.le_antisymm hrp.length_le hpr.length_le))

end Php.Node

end Availability
