import Availability.Extraction
import Availability.Proofs.Traversal
import Mathlib.Data.List.Induction

/-!
# Declarations by their places

The search for declarations takes along the class around it and the doc comment before it. Here the
same is said of places in the tree: which class is the innermost around a place, which comments
stand directly before it, and whether the node there declares something that can be called by name.
The search finds what is declared at all places, in the order of the source.
-/
namespace Availability

open Php

namespace Php.Node

mutual

/-- The places of a node and of all nodes below it, in the order of the source. -/
def paths : Node → List Path
  | mk _ _ _ _ children => [] :: pathsFrom 0 children

/-- The places below siblings that begin at a position. -/
def pathsFrom (i : Nat) : List Node → List Path
  | [] => []
  | n :: rest => (paths n).map (i :: ·) ++ pathsFrom (i + 1) rest

end

theorem paths_eq (n : Node) : n.paths = [] :: pathsFrom 0 n.children := by
  cases n
  rw [paths, children]

theorem mem_pathsFrom {i : Nat} {siblings : List Node} {p : Path} :
    p ∈ pathsFrom i siblings ↔
      ∃ j c q, siblings[j]? = some c ∧ q ∈ c.paths ∧ p = (i + j) :: q := by
  induction siblings generalizing i with
  | nil => simp [pathsFrom]
  | cons n rest ih =>
    rw [pathsFrom, List.mem_append, List.mem_map, ih]
    constructor
    · rintro (⟨q, hq, rfl⟩ | ⟨j, c, q, hc, hq, rfl⟩)
      · exact ⟨0, n, q, rfl, hq, rfl⟩
      · exact ⟨j + 1, c, q, hc, hq, by rw [Nat.add_assoc, Nat.add_comm 1]⟩
    · rintro ⟨j, c, q, hc, hq, rfl⟩
      cases j with
      | zero =>
        obtain rfl : n = c := by simpa using hc
        exact .inl ⟨q, hq, rfl⟩
      | succ j => exact .inr ⟨j, c, q, hc, hq, by rw [Nat.add_assoc, Nat.add_comm 1]⟩

theorem mem_paths_iff {n : Node} {p : Path} : p ∈ n.paths ↔ ∃ m, n.at? p = some m := by
  induction p generalizing n with
  | nil => simp [paths_eq, at?]
  | cons i p ih =>
    rw [paths_eq, List.mem_cons, mem_pathsFrom, at?]
    constructor
    · rintro (h | ⟨j, c, q, hc, hq, h⟩)
      · cases h
      · obtain ⟨rfl, rfl⟩ : i = j ∧ p = q := by simpa using h
        rw [hc]
        exact ih.mp hq
    · rintro ⟨m, hm⟩
      obtain ⟨c, hc, hm⟩ := Option.bind_eq_some_iff.mp hm
      exact .inr ⟨i, c, p, hc, ih.mpr ⟨m, hm⟩, by simp⟩

theorem pairwise_pathsFrom {i : Nat} {siblings : List Node}
    (h : ∀ c ∈ siblings, c.paths.Pairwise (· < ·)) : (pathsFrom i siblings).Pairwise (· < ·) := by
  induction siblings generalizing i with
  | nil => simp [pathsFrom]
  | cons n rest ih =>
    rw [pathsFrom, List.pairwise_append]
    refine ⟨?_, ih fun c hc => h c (List.mem_cons_of_mem n hc), ?_⟩
    · exact List.pairwise_map.mpr
        ((h n List.mem_cons_self).imp fun hlt => List.cons_lt_cons_self.mpr hlt)
    · intro p hp q hq
      obtain ⟨p, -, rfl⟩ := List.mem_map.mp hp
      obtain ⟨j, c, q, -, -, rfl⟩ := mem_pathsFrom.mp hq
      exact List.cons_lt_cons_iff.mpr (.inl (by omega))

/-- A node comes before the nodes below it and before the siblings after it. -/
theorem pairwise_paths (n : Node) : n.paths.Pairwise (· < ·) := by
  induction n using induction_on_children with
  | step n ih =>
    rw [paths_eq]
    refine List.pairwise_cons.mpr ⟨fun p hp => ?_, pairwise_pathsFrom ih⟩
    obtain ⟨j, c, q, -, -, rfl⟩ := mem_pathsFrom.mp hp
    exact List.nil_lt_cons _ _

/-- The siblings before the node at a place, the nearest first. -/
def siblingsBefore (tree : Node) (p : Path) : List Node :=
  match p.getLast?, tree.at? p.dropLast with
  | some i, some parent => (parent.children.take i).reverse
  | _, _ => []

/-- A comment that can be read. -/
def isReadableComment (n : Node) : Bool :=
  n.kind == .comment && n.text?.isSome

/-- The doc comment of the node at a place: the nearest of the comments that stand directly before
it, with nothing else between. -/
def docAt? (tree : Node) (p : Path) : Option String :=
  ((tree.siblingsBefore p).takeWhile isReadableComment).findSome? fun n =>
    n.text?.filter fun text => Text.startsWith ['/', '*', '*'] text.toList

theorem docComment?_eq (before : List Node) :
    Declaration.docComment? before =
      (before.takeWhile isReadableComment).findSome? fun n =>
        n.text?.filter fun text => Text.startsWith ['/', '*', '*'] text.toList := by
  induction before with
  | nil => rfl
  | cons n rest ih =>
    rw [Declaration.docComment?]
    by_cases hkind : n.kind = .comment
    · cases htext : n.text? with
      | none => simp [hkind, htext, isReadableComment]
      | some text =>
        by_cases hdoc : Text.startsWith ['/', '*', '*'] text.toList = true
        · simp [hkind, htext, isReadableComment, hdoc, Option.filter]
        · simp [hkind, htext, isReadableComment, hdoc, ih]
    · simp [hkind, isReadableComment]

end Php.Node

namespace Declaration

/-- The kinds of classes that have a name. -/
def namedClasses : List Kind :=
  [.classDeclaration, .interfaceDeclaration, .traitDeclaration, .enumDeclaration]

/-- The kinds of nodes that stand for a class without a name: the class, and the creation of an
object of it. -/
def namelessClasses : List Kind :=
  [.anonymousClass, .objectCreation]

/-- The innermost class around a place. -/
structure ClassAround (tree : Node) (p q : Path) (c : Node) : Prop where
  node : tree.at? q = some c
  isClass : c.kind ∈ namedClasses ++ namelessClasses
  around : q <+: p ∧ q ≠ p
  innermost : ∀ r m, tree.at? r = some m → m.kind ∈ namedClasses ++ namelessClasses →
    r <+: p → r ≠ p → r <+: q

/-- What is declared at a place and can be called by its name. -/
inductive DeclaredAt (tree : Node) (p : Path) : Declaration → Prop
  | function {n name : Node} : tree.at? p = some n → n.kind = .function →
      n.child? .name = some name → name.kind = .name →
      DeclaredAt tree p ⟨name.text, n.line, tree.docAt? p, none⟩
  /-- A method that is not private, of a class that has a name. -/
  | method {n name c : Node} {q : Path} {owner : String} : tree.at? p = some n →
      n.kind = .method → n.child? .name = some name → name.kind = .name →
      (∀ m ∈ n.children, m.kind = .visibility → Text.sameLetters m.text "private" = false) →
      ClassAround tree p q c → c.kind ∈ namedClasses →
      (c.child? .name).bind Node.literalName? = some owner →
      DeclaredAt tree p ⟨owner ++ "::" ++ name.text, n.line, tree.docAt? p, tree.docAt? q⟩

section Around

variable {tree n c : Node} {p q : Path} {i : Nat}

theorem not_classAround_nil : ¬ClassAround tree [] q c := by
  intro h
  exact h.around.2 (List.prefix_nil.mp h.around.1)

theorem ne_concat_of_isPrefix (h : q <+: p) : q ≠ p ++ [i] := by
  rintro rfl
  have hle := h.length_le
  rw [List.length_append, List.length_singleton] at hle
  omega

theorem isPrefix_concat_ne_iff : q <+: p ++ [i] ∧ q ≠ p ++ [i] ↔ q <+: p := by
  rw [List.prefix_concat_iff]
  constructor
  · rintro ⟨heq | h, hne⟩
    · exact absurd heq hne
    · exact h
  · intro h
    exact ⟨.inr h, ne_concat_of_isPrefix h⟩

/-- A class is the innermost one around its children. -/
theorem classAround_concat_of_class (hn : tree.at? p = some n)
    (hclass : n.kind ∈ namedClasses ++ namelessClasses) :
    ClassAround tree (p ++ [i]) q c ↔ q = p ∧ c = n := by
  constructor
  · intro h
    have hqp : q <+: p := isPrefix_concat_ne_iff.mp h.around
    have hpq : p <+: q :=
      h.innermost p n hn hclass (List.prefix_append p [i]) (ne_concat_of_isPrefix List.prefix_rfl)
    obtain rfl : q = p := hqp.eq_of_length (Nat.le_antisymm hqp.length_le hpq.length_le)
    have hnode := h.node
    rw [hn, Option.some.injEq] at hnode
    exact ⟨rfl, hnode.symm⟩
  · rintro ⟨rfl, rfl⟩
    refine ⟨hn, hclass, isPrefix_concat_ne_iff.mpr List.prefix_rfl, fun r m _ _ hr hne => ?_⟩
    exact isPrefix_concat_ne_iff.mp ⟨hr, hne⟩

/-- Another node has the same class around it as its children. -/
theorem classAround_concat_of_not_class (hn : tree.at? p = some n)
    (hclass : n.kind ∉ namedClasses ++ namelessClasses) :
    ClassAround tree (p ++ [i]) q c ↔ ClassAround tree p q c := by
  have hne {r : Path} {m : Node} (hm : tree.at? r = some m)
      (hmclass : m.kind ∈ namedClasses ++ namelessClasses) : r ≠ p := by
    rintro rfl
    rw [hn, Option.some.injEq] at hm
    exact hclass (hm ▸ hmclass)
  constructor
  · intro h
    refine ⟨h.node, h.isClass, ⟨isPrefix_concat_ne_iff.mp h.around, hne h.node h.isClass⟩, ?_⟩
    intro r m hm hmclass hr _
    obtain ⟨hr', hne'⟩ := @isPrefix_concat_ne_iff p r i |>.mpr hr
    exact h.innermost r m hm hmclass hr' hne'
  · intro h
    refine ⟨h.node, h.isClass, isPrefix_concat_ne_iff.mpr h.around.1, ?_⟩
    intro r m hm hmclass hr hrne
    exact h.innermost r m hm hmclass (isPrefix_concat_ne_iff.mp ⟨hr, hrne⟩) (hne hm hmclass)

end Around

/-- What the search takes along to a node. -/
structure Placed where
  owner : Option Owner
  doc : Option String
  node : Node

namespace Placed

def child? (s : Placed) (i : Nat) : Option Placed :=
  s.node.children[i]?.map fun c =>
    ⟨ownerBelow s.owner s.doc s.node, docComment? (s.node.children.take i).reverse, c⟩

def at? (s : Placed) : Path → Option Placed
  | [] => some s
  | i :: p => (s.child? i).bind fun c => c.at? p

def declaration? (s : Placed) : Option Declaration :=
  ofNode? s.owner s.doc s.node

theorem at?_concat (s : Placed) (p : Path) (i : Nat) :
    s.at? (p ++ [i]) = (s.at? p).bind fun t => t.child? i := by
  induction p generalizing s with
  | nil => simp [at?]
  | cons j p ih =>
    rw [List.cons_append, at?, at?, Option.bind_assoc]
    congr 1
    funext c
    exact ih c

/-- What is found below siblings, if below each of them it is what is declared there. -/
theorem withinAll_eq (s : Placed)
    (h : ∀ c ∈ s.node.children, ∀ owner doc, within owner doc c =
      c.paths.filterMap fun p => ((⟨owner, doc, c⟩ : Placed).at? p).bind declaration?)
    {done rest : List Node} (hsplit : s.node.children = done ++ rest) :
    withinAll (ownerBelow s.owner s.doc s.node) done.reverse rest =
      (Node.pathsFrom done.length rest).filterMap fun p => (s.at? p).bind declaration? := by
  induction rest generalizing done with
  | nil => simp [withinAll, Node.pathsFrom]
  | cons c rest ih =>
    have hchild : s.child? done.length =
        some ⟨ownerBelow s.owner s.doc s.node, docComment? done.reverse, c⟩ := by
      simp [child?, hsplit]
    have hrest := @ih (done ++ [c]) (by simp [hsplit])
    rw [List.reverse_append, List.length_append] at hrest
    rw [withinAll, Node.pathsFrom, List.filterMap_append, List.filterMap_map,
      h c (by simp [hsplit])]
    congr 1
    refine List.filterMap_congr fun p _ => ?_
    simp only [Function.comp_apply, at?, hchild, Option.bind_some]

/-- The search finds what is declared at the places of a node, in their order. -/
theorem within_eq (s : Placed) :
    within s.owner s.doc s.node =
      s.node.paths.filterMap fun p => (s.at? p).bind declaration? := by
  obtain ⟨owner, doc, n⟩ := s
  induction n using Node.induction_on_children generalizing owner doc with
  | step n ih =>
    have hroot : within owner doc n =
        (ofNode? owner doc n).toList ++ withinAll (ownerBelow owner doc n) [] n.children := by
      cases n
      rw [within, Node.children]
    have hbelow := withinAll_eq ⟨owner, doc, n⟩ ih (List.nil_append _).symm
    rw [List.reverse_nil, List.length_nil] at hbelow
    rw [hroot, hbelow, Node.paths_eq]
    cases hhere : ofNode? owner doc n <;> simp [at?, declaration?, hhere]

end Placed

/-- What is taken along is what is around a place: the doc comment before it, and the innermost
class if it has a name. -/
structure Fits (tree : Node) (p : Path) (s : Placed) : Prop where
  node : tree.at? p = some s.node
  doc : s.doc = tree.docAt? p
  owner_none : s.owner = none → ∀ q c, ClassAround tree p q c → c.kind ∉ namedClasses
  owner_some : ∀ o, s.owner = some o → ∃ q c, ClassAround tree p q c ∧ c.kind ∈ namedClasses ∧
    o = ⟨(c.child? .name).bind Node.literalName?, tree.docAt? q⟩

section Below

variable {owner : Option Owner} {doc : Option String} {n : Node}

theorem isClassLike_iff {kind : Kind} : isClassLike kind = true ↔ kind ∈ namedClasses := by
  cases kind <;> decide

theorem nameless_iff {kind : Kind} :
    kind = .anonymousClass ∨ kind = .objectCreation ↔ kind ∈ namelessClasses := by
  simp [namelessClasses]

theorem ownerBelow_of_named (h : n.kind ∈ namedClasses) :
    ownerBelow owner doc n = some ⟨(n.child? .name).bind Node.literalName?, doc⟩ :=
  if_pos (isClassLike_iff.mpr h)

theorem ownerBelow_of_nameless (h : n.kind ∈ namelessClasses) : ownerBelow owner doc n = none := by
  have hnot : ¬isClassLike n.kind = true := by
    rcases nameless_iff.mpr h with hkind | hkind <;> simp [hkind, isClassLike]
  rw [ownerBelow, if_neg hnot, if_pos (nameless_iff.mpr h)]

theorem ownerBelow_of_other (h : n.kind ∉ namedClasses ++ namelessClasses) :
    ownerBelow owner doc n = owner := by
  obtain ⟨hnamed, hnameless⟩ := not_or.mp (mt List.mem_append.mpr h)
  rw [ownerBelow, if_neg (mt isClassLike_iff.mp hnamed), if_neg (mt nameless_iff.mp hnameless)]

end Below

theorem docAt?_concat {tree n : Node} {p : Path} {i : Nat} (hn : tree.at? p = some n) :
    tree.docAt? (p ++ [i]) = docComment? (n.children.take i).reverse := by
  rw [Node.docAt?, Node.siblingsBefore, List.getLast?_concat, List.dropLast_concat, hn,
    Node.docComment?_eq]

theorem Fits.root (tree : Node) : Fits tree [] ⟨none, none, tree⟩ where
  node := rfl
  doc := rfl
  owner_none _ _ _ h := absurd h not_classAround_nil
  owner_some _ h := by cases h

theorem Fits.child {tree : Node} {p : Path} {i : Nat} {s t : Placed} (h : Fits tree p s)
    (ht : s.child? i = some t) : Fits tree (p ++ [i]) t := by
  obtain ⟨c, hc, rfl⟩ := Option.map_eq_some_iff.mp ht
  have hnode : tree.at? (p ++ [i]) = some c := by rw [Node.at?_concat, h.node, Option.bind_some, hc]
  have hdoc := (docAt?_concat (i := i) h.node).symm
  by_cases hnamed : s.node.kind ∈ namedClasses
  · have haround := fun q c =>
      @classAround_concat_of_class tree s.node c p q i h.node (List.mem_append_left _ hnamed)
    rw [ownerBelow_of_named hnamed]
    refine ⟨hnode, hdoc, nofun, fun o ho => ?_⟩
    obtain rfl := Option.some.inj ho
    exact ⟨p, s.node, (haround _ _).mpr ⟨rfl, rfl⟩, hnamed, by rw [h.doc]⟩
  · by_cases hnameless : s.node.kind ∈ namelessClasses
    · rw [ownerBelow_of_nameless hnameless]
      refine ⟨hnode, hdoc, fun _ q c hclass => ?_, nofun⟩
      obtain ⟨rfl, rfl⟩ :=
        (classAround_concat_of_class h.node (List.mem_append_right _ hnameless)).mp hclass
      exact hnamed
    · have hother : s.node.kind ∉ namedClasses ++ namelessClasses := by
        simp [hnamed, hnameless]
      rw [ownerBelow_of_other hother]
      refine ⟨hnode, hdoc, fun hnone q c hclass => ?_, fun o ho => ?_⟩
      · exact h.owner_none hnone q c ((classAround_concat_of_not_class h.node hother).mp hclass)
      · obtain ⟨q, c, hclass, hkind, hname⟩ := h.owner_some o ho
        exact ⟨q, c, (classAround_concat_of_not_class h.node hother).mpr hclass, hkind, hname⟩

theorem fits_of_at? {tree : Node} {p : Path} {s : Placed}
    (h : (⟨none, none, tree⟩ : Placed).at? p = some s) : Fits tree p s := by
  induction p using List.reverseRecOn generalizing s with
  | nil =>
    obtain rfl := Option.some.inj h
    exact .root tree
  | append_singleton p i ih =>
    rw [Placed.at?_concat] at h
    obtain ⟨t, ht, hs⟩ := Option.bind_eq_some_iff.mp h
    exact (ih ht).child hs

theorem exists_at? {tree n : Node} {p : Path} (h : tree.at? p = some n) :
    ∃ s, (⟨none, none, tree⟩ : Placed).at? p = some s := by
  induction p using List.reverseRecOn generalizing n with
  | nil => exact ⟨_, rfl⟩
  | append_singleton p i ih =>
    rw [Node.at?_concat] at h
    obtain ⟨m, hm, hn⟩ := Option.bind_eq_some_iff.mp h
    obtain ⟨s, hs⟩ := ih hm
    have hnode := (fits_of_at? hs).node
    rw [hm, Option.some.injEq] at hnode
    rw [Placed.at?_concat, hs, Option.bind_some, Placed.child?, ← hnode, hn]
    exact ⟨_, rfl⟩

theorem ClassAround.unique {tree c c' : Node} {p q q' : Path} (h : ClassAround tree p q c)
    (h' : ClassAround tree p q' c') : q = q' ∧ c = c' := by
  have hle := h.innermost q' c' h'.node h'.isClass h'.around.1 h'.around.2
  have hge := h'.innermost q c h.node h.isClass h.around.1 h.around.2
  obtain rfl : q = q' := hge.eq_of_length (Nat.le_antisymm hge.length_le hle.length_le)
  exact ⟨rfl, Option.some.inj (h.node.symm.trans h'.node)⟩

theorem name?_eq_some_iff {n : Node} {text : String} :
    name? n = some text ↔
      ∃ name, n.child? .name = some name ∧ name.kind = .name ∧ name.text = text := by
  unfold name?
  cases n.child? .name with
  | none => simp
  | some name => simp

theorem isPrivate_eq_false_iff {n : Node} :
    isPrivate n = false ↔
      ∀ m ∈ n.children, m.kind = .visibility → Text.sameLetters m.text "private" = false := by
  simp [isPrivate]

/-- A node declares what its place says. -/
theorem Fits.declaration?_eq_some_iff {tree : Node} {p : Path} {s : Placed} {d : Declaration}
    (h : Fits tree p s) : s.declaration? = some d ↔ DeclaredAt tree p d := by
  constructor
  · intro hd
    unfold Placed.declaration? ofNode? at hd
    split at hd
    · rename_i text hkind hname
      obtain ⟨name, hchild, hplain, rfl⟩ := name?_eq_some_iff.mp hname
      obtain rfl := Option.some.inj hd
      rw [h.doc]
      exact .function h.node hkind hchild hplain
    · rename_i text hkind hname
      obtain ⟨name, hchild, hplain, rfl⟩ := name?_eq_some_iff.mp hname
      split at hd
      · cases hd
      · rename_i hpublic
        split at hd
        · rename_i owner ownerDoc howner
          obtain rfl := Option.some.inj hd
          obtain ⟨q, c, hclass, hnamed, heq⟩ := h.owner_some _ howner
          obtain ⟨hownerName, rfl⟩ := Owner.mk.inj heq
          rw [h.doc]
          exact .method h.node hkind hchild hplain
            (isPrivate_eq_false_iff.mp (Bool.eq_false_iff.mpr hpublic)) hclass hnamed
            hownerName.symm
        · cases hd
    · cases hd
  · intro hd
    unfold Placed.declaration? ofNode?
    cases hd with
    | function hnode hkind hchild hplain =>
      obtain rfl := Option.some.inj (h.node.symm.trans hnode)
      rw [hkind, name?_eq_some_iff.mpr ⟨_, hchild, hplain, rfl⟩, h.doc]
    | method hnode hkind hchild hplain hpublic hclass hnamed hownerName =>
      obtain rfl := Option.some.inj (h.node.symm.trans hnode)
      rw [hkind, name?_eq_some_iff.mpr ⟨_, hchild, hplain, rfl⟩, h.doc]
      cases howner : s.owner with
      | none => exact absurd hnamed (h.owner_none howner _ _ hclass)
      | some o =>
        obtain ⟨q', c', hclass', -, rfl⟩ := h.owner_some o howner
        obtain ⟨rfl, rfl⟩ := hclass.unique hclass'
        simp only [isPrivate_eq_false_iff.mpr hpublic, hownerName, Bool.false_eq_true, if_false]

/-- The search finds exactly what is declared at the places of a tree, each once and in the order of
the source. -/
theorem exists_places (tree : Node) :
    ∃ found : List (Path × Declaration), found.map Prod.snd = ofTree tree ∧
      (found.map Prod.fst).Pairwise (· < ·) ∧ ∀ p d, (p, d) ∈ found ↔ DeclaredAt tree p d := by
  let root : Placed := ⟨none, none, tree⟩
  refine ⟨tree.paths.filterMap fun p => ((root.at? p).bind Placed.declaration?).map (p, ·), ?_, ?_,
    fun p d => ?_⟩
  · rw [ofTree, root.within_eq, List.map_filterMap]
    simp only [Option.map_map, Function.comp_def, Option.map_id_fun', id_eq]
    rfl
  · refine List.pairwise_map.mpr (List.pairwise_filterMap.mpr (tree.pairwise_paths.imp ?_))
    intro p q hlt found hfound found' hfound'
    obtain ⟨d, -, rfl⟩ := Option.map_eq_some_iff.mp hfound
    obtain ⟨d', -, rfl⟩ := Option.map_eq_some_iff.mp hfound'
    exact hlt
  · rw [List.mem_filterMap]
    constructor
    · rintro ⟨q, -, hq⟩
      obtain ⟨d', hd', heq⟩ := Option.map_eq_some_iff.mp hq
      obtain ⟨rfl, rfl⟩ := Prod.mk.inj heq
      obtain ⟨s, hs, hd⟩ := Option.bind_eq_some_iff.mp hd'
      exact (fits_of_at? hs).declaration?_eq_some_iff.mp hd
    · intro hd
      obtain ⟨n, hn⟩ : ∃ n, tree.at? p = some n := by
        cases hd with
        | function hnode => exact ⟨_, hnode⟩
        | method hnode => exact ⟨_, hnode⟩
      obtain ⟨s, hs⟩ := exists_at? hn
      refine ⟨p, Node.mem_paths_iff.mpr ⟨n, hn⟩, ?_⟩
      rw [hs, Option.bind_some, (fits_of_at? hs).declaration?_eq_some_iff.mpr hd, Option.map_some]

end Declaration

end Availability
