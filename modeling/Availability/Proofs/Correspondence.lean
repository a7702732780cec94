import Availability.Proofs.ClassNames
import Availability.Proofs.Traversal

/-!
# Trees that correspond

Two trees correspond if they have nodes of the same kinds, roles and lines at the same places, with
texts that are spelled the same. A hole may be left out: the body of a function, which may be
anything. What is read off a node, its name, its literals, the classes of its value, is then the
same in both trees up to spelling, since nothing is read through the body of a function.
-/
namespace Availability

open Php

/-- What two nodes at the same place have in common. The name of a variable counts as it is. -/
structure SameHead (S : Spelling) (n n' : Node) : Prop where
  kind : n'.kind = n.kind
  role : n'.role = n.role
  line : n'.line = n.line
  text : n.text?.map S.norm = n'.text?.map S.norm
  variableText : n.kind = .variable → n'.text? = n.text?

theorem SameHead.refl (S : Spelling) (n : Node) : SameHead S n n :=
  ⟨rfl, rfl, rfl, rfl, fun _ => rfl⟩

theorem SameHead.isNamed_eq {S : Spelling} {n n' : Node} (h : SameHead S n n') :
    n.isNamed = n'.isNamed := by
  rw [Node.isNamed, Node.isNamed, h.kind]

/-- Whether the body of a node is read by nobody but the walk: the node is a function, and it does
not stand where the argument list of a call or the parameter list of a function is looked up. -/
def Php.Node.IsOwner (n : Node) : Prop :=
  n.kind.isFunction = true ∧ n.role ≠ .arguments ∧ n.role ≠ .parameters

/-- At a path below a node is the body of a function that is not part of a type. -/
inductive OwnBody : Node → Path → Prop
  | here {n : Node} {i : Nat} (howner : n.IsOwner) (htype : n.role ≠ .type)
      (hbody : n.place? .body = some i) : OwnBody n [i]
  | inside {n c : Node} {i : Nat} {path : Path} (htype : n.role ≠ .type)
      (hc : n.children[i]? = some c) (h : OwnBody c path) : OwnBody n (i :: path)

/-- Whether a path is in the hole. -/
def Within (hole : Option Path) (path : Path) : Prop :=
  ∃ h ∈ hole, h <+: path

/-- Trees that correspond outside of a hole. -/
structure Alike (S : Spelling) (hole : Option Path) (n n' : Node) : Prop where
  heads : ∀ path, ¬Within hole path → Option.Rel (SameHead S) (n.at? path) (n'.at? path)
  hole : ∀ h ∈ hole, OwnBody n h ∧ OwnBody n' h

/-- The hole as a child sees it. -/
def holeBelow (i : Nat) : Option Path → Option Path
  | some (j :: h) => if j = i then some h else none
  | _ => none

/-- Trees that correspond outside of some hole. -/
def Near (S : Spelling) (n n' : Node) : Prop :=
  ∃ hole, Alike S hole n n'

/-- How the children at a position correspond. -/
def AlikeChild (S : Spelling) (hole : Option Path) (n : Node) (i : Nat) (c c' : Node) : Prop :=
  if hole = some [i] then n.IsOwner ∧ c.role = .body ∧ c'.role = .body
  else Alike S (holeBelow i hole) c c'

theorem eq_of_holeBelow {hole : Option Path} {i : Nat} {rest : Path}
    (h : rest ∈ holeBelow i hole) : hole = some (i :: rest) := by
  unfold holeBelow at h
  split at h
  · split at h
    · rename_i heq
      cases h
      rw [heq]
    · cases h
  · cases h

namespace OwnBody

variable {n c : Node} {i : Nat} {rest : Path}

theorem of_cons (h : OwnBody n (i :: rest)) (hne : rest ≠ []) (hc : n.children[i]? = some c) :
    OwnBody c rest := by
  cases h with
  | here => exact absurd rfl hne
  | inside _ hd h =>
    rw [hc, Option.some.injEq] at hd
    exact hd ▸ h

theorem of_singleton (h : OwnBody n [i]) : n.IsOwner ∧ n.place? .body = some i := by
  cases h with
  | here howner _ hbody => exact ⟨howner, hbody⟩
  | inside _ _ h => cases h

theorem role_ne_type {path : Path} (h : OwnBody n path) : n.role ≠ .type := by
  cases h with
  | here _ htype => exact htype
  | inside htype => exact htype

end OwnBody

namespace Alike

variable {S : Spelling} {hole : Option Path} {n n' c c' : Node} {i : Nat}

theorem ne_nil (h : Alike S hole n n') : hole ≠ some [] := by
  rintro rfl
  cases (h.hole [] rfl).1

theorem not_within_nil (h : Alike S hole n n') : ¬Within hole [] := by
  rintro ⟨p, hp, hnil⟩
  rw [List.prefix_nil.mp hnil] at hp
  exact h.ne_nil hp

theorem head (h : Alike S hole n n') : SameHead S n n' := by
  have hhead := h.heads [] h.not_within_nil
  simp only [Node.at?] at hhead
  cases hhead
  assumption

theorem within_holeBelow (h : Alike S hole n n') {path : Path} :
    Within (holeBelow i hole) path ↔ Within hole (i :: path) := by
  cases hole with
  | none => simp [Within, holeBelow]
  | some hole =>
    cases hole with
    | nil => exact absurd rfl h.ne_nil
    | cons j rest =>
      by_cases hj : j = i
      · simp [Within, holeBelow, hj]
      · simp [Within, holeBelow, hj]

theorem child (h : Alike S hole n n') (hi : hole ≠ some [i]) (hc : n.children[i]? = some c)
    (hc' : n'.children[i]? = some c') : Alike S (holeBelow i hole) c c' where
  heads path hpath := by
    have hheads := h.heads (i :: path) fun hwithin => hpath (h.within_holeBelow.mpr hwithin)
    simpa [hc, hc'] using hheads
  hole rest hrest := by
    obtain rfl := eq_of_holeBelow hrest
    have hne : rest ≠ [] := by
      rintro rfl
      exact hi rfl
    obtain ⟨hown, hown'⟩ := h.hole _ rfl
    exact ⟨hown.of_cons hne hc, hown'.of_cons hne hc'⟩

/-- The children correspond one by one; only the owner of the hole has it among them. -/
theorem getElem? (h : Alike S hole n n') (i : Nat) :
    Option.Rel (AlikeChild S hole n i) n.children[i]? n'.children[i]? := by
  by_cases hi : hole = some [i]
  · obtain ⟨hown, hown'⟩ := h.hole _ hi
    obtain ⟨c, hc, hbody⟩ := Node.role_of_place? hown.of_singleton.2
    obtain ⟨c', hc', hbody'⟩ := Node.role_of_place? hown'.of_singleton.2
    rw [hc, hc']
    refine .some ?_
    unfold AlikeChild
    rw [if_pos hi]
    exact ⟨hown.of_singleton.1, hbody, hbody'⟩
  · have hwithin : ¬Within hole [i] := by
      rintro ⟨p, hp, hprefix⟩
      rcases List.prefix_cons_iff.mp hprefix with rfl | ⟨rest, rfl, hrest⟩
      · exact h.ne_nil hp
      · rw [List.prefix_nil.mp hrest] at hp
        exact hi hp
    have hheads := h.heads [i] hwithin
    simp only [Node.at?, Option.bind_fun_some] at hheads
    rcases rel_cases hheads with ⟨hnone, hnone'⟩ | ⟨c, c', hc, hc', -⟩
    · rw [hnone, hnone']
      exact .none
    · rw [hc, hc']
      refine .some ?_
      unfold AlikeChild
      rw [if_neg hi]
      exact h.child hi hc hc'

theorem children_of_ne (h : Alike S hole n n') (hne : ∀ i, hole ≠ some [i]) :
    List.Forall₂ (Near S) n.children n'.children := by
  apply forall₂_of_getElem?
  intro i
  refine rel_imp (h.getElem? i) fun c c' hchild => ?_
  unfold AlikeChild at hchild
  rw [if_neg (hne i)] at hchild
  exact ⟨_, hchild⟩

theorem ne_singleton (h : Alike S hole n n') (hn : ¬n.IsOwner) (i : Nat) : hole ≠ some [i] := by
  rintro rfl
  exact hn (h.hole _ rfl).1.of_singleton.1

/-- There is no hole in a type. -/
theorem none_of_type (h : Alike S hole n n') (hn : n.role = .type) : Alike S none n n' := by
  cases hole with
  | none => exact h
  | some hole => exact absurd hn (h.hole hole rfl).1.role_ne_type

theorem children_of_none (h : Alike S none n n') :
    List.Forall₂ (Alike S none) n.children n'.children :=
  forall₂_of_getElem? h.getElem?

end Alike

namespace Near

variable {S : Spelling} {n n' : Node}

theorem head (h : Near S n n') : SameHead S n n' := by
  obtain ⟨hole, h⟩ := h
  exact h.head

theorem children (h : Near S n n') (hn : ¬n.IsOwner) :
    List.Forall₂ (Near S) n.children n'.children := by
  obtain ⟨hole, h⟩ := h
  exact h.children_of_ne (h.ne_singleton hn)

theorem namedChildren_of_children (h : List.Forall₂ (Near S) n.children n'.children) :
    List.Forall₂ (Near S) n.namedChildren n'.namedChildren :=
  rel_filter_of_eq h fun _ _ hc => hc.head.isNamed_eq

theorem namedChildren (h : Near S n n') (hn : ¬n.IsOwner) :
    List.Forall₂ (Near S) n.namedChildren n'.namedChildren :=
  namedChildren_of_children (h.children hn)

theorem not_isOwner_of_kind (hkind : n.kind.isFunction = false) : ¬n.IsOwner :=
  fun howner => absurd howner.1 (by simp [hkind])

/-- Whatever the hole is, a child in another role than that of a body is not in it. -/
theorem child? (h : Near S n n') (role : Role) (hrole : role ≠ .body := by decide) :
    Option.Rel (fun c c' => c.role = role ∧ Near S c c') (n.child? role) (n'.child? role) := by
  obtain ⟨hole, h⟩ := h
  have hchildren : List.Forall₂ (fun c c' => c.role = c'.role ∧ (c.role ≠ .body → Near S c c'))
      n.children n'.children := by
    apply forall₂_of_getElem?
    intro i
    refine rel_imp (h.getElem? i) fun c c' hchild => ?_
    unfold AlikeChild at hchild
    split at hchild
    · obtain ⟨-, hbody, hbody'⟩ := hchild
      exact ⟨hbody.trans hbody'.symm, fun hne => absurd hbody hne⟩
    · exact ⟨hchild.head.role.symm, fun _ => ⟨_, hchild⟩⟩
  have hfind := rel_find? (p := (·.role == role)) (q := (·.role == role)) hchildren
    fun c c' hc => by rw [hc.1]
  unfold Node.child?
  rcases rel_cases hfind with ⟨hnone, hnone'⟩ | ⟨c, c', hc, hc', hrel⟩
  · rw [hnone, hnone']
    exact .none
  · rw [hc, hc']
    have hcrole : c.role = role := by simpa using List.find?_some hc
    exact .some ⟨hcrole, hrel.2 (by rw [hcrole]; exact hrole)⟩

theorem childOfKind?_of_children (h : List.Forall₂ (Near S) n.children n'.children)
    (kind : Kind) : Option.Rel (Near S) (n.childOfKind? kind) (n'.childOfKind? kind) :=
  rel_find? (namedChildren_of_children h) fun c c' hc => by rw [hc.head.kind]

end Near

end Availability
