import Availability.Proofs.Correspondence

/-!
# What is read off corresponding trees

The values that the analysis reads off a node, literals, arguments, classes and types, are the same
for corresponding nodes up to spelling.
-/
namespace Availability

open Php

namespace SameHead

variable {S : Spelling} {n n' : Node}

theorem literalName? (h : SameHead S n n') :
    n.literalName?.map S.norm = n'.literalName?.map S.norm := by
  unfold Node.literalName?
  rw [h.kind]
  split
  · exact S.bind_congr (fun s => by rw [S.trim_norm, S.lookupName?_norm]) h.text
  · exact S.bind_congr (fun s => by rw [S.trim_norm, S.lookupName?_norm]) h.text
  · rfl

theorem literalString? (h : SameHead S n n') :
    n.literalString?.map S.norm = n'.literalString?.map S.norm := by
  unfold Node.literalString?
  rw [h.kind]
  split
  · exact S.bind_congr S.singleQuoted?_norm h.text
  · exact S.bind_congr S.doubleQuoted?_norm h.text
  · rfl

theorem variableName? (h : SameHead S n n') : n.variableName? = n'.variableName? := by
  unfold Node.variableName?
  rw [h.kind]
  split
  · rw [h.variableText ‹_›]
  · rfl

theorem isClassName_eq (h : SameHead S n n') :
    Receiver.isClassName n = Receiver.isClassName n' := by
  simp only [Receiver.isClassName, h.kind]

theorem trimmed (h : SameHead S n n') :
    (n.text?.map Text.trim).map S.norm = (n'.text?.map Text.trim).map S.norm := by
  simp only [Option.map_map, Function.comp_def, ← S.trim_norm]
  simpa only [Option.map_map, Function.comp_def] using congrArg (Option.map Text.trim) h.text

theorem any_sameLetters (h : SameHead S n n') (word : String) :
    n.text?.any (Text.sameLetters word) = n'.text?.any (Text.sameLetters word) := by
  have key (text : Option String) :
      text.any (Text.sameLetters word) = (text.map S.norm).any (Text.sameLetters word) := by
    cases text with
    | none => rfl
    | some text => simp only [Option.any_some, Option.map_some, Text.sameLetters, S.lower_norm]
  rw [key, h.text, ← key]

theorem named? (h : SameHead S n n') {s s' : Scope} (hs : s.Agree S s') :
    (Receiver.named? s n).map S.norm = (Receiver.named? s' n').map S.norm := by
  unfold Receiver.named?
  rw [h.kind]
  split
  · simpa only [Option.bind_map, Function.comp_def] using hs.bind_resolve? h.trimmed
  · exact hs.bind_resolve? h.literalName?

end SameHead

namespace Php.Node

/-- What a reader finds that goes through nodes of some kinds to their first named child. -/
def Descends (is : Kind → Prop) [DecidablePred is] (f : Node → Node) : Prop :=
  ∀ n, f n = if is n.kind then (n.namedChildren.head?.map f).getD n else n

/-- The loop over the children with which such a reader looks for the first named one. -/
theorem first_eq {f : Node → Node} (first : Node → List Node → Node)
    (hnil : ∀ outer, first outer [] = outer)
    (hcons : ∀ outer c rest,
      first outer (c :: rest) = if c.isNamed then f c else first outer rest)
    (outer : Node) (children : List Node) :
    first outer children = ((children.filter isNamed).head?.map f).getD outer := by
  induction children with
  | nil => exact hnil outer
  | cons c rest ih =>
    rw [hcons, List.filter_cons]
    split
    · rfl
    · exact ih

theorem descends_unparenthesize : Descends (· = .parenthesized) unparenthesize := by
  rintro ⟨kind, role, line, text, children⟩
  rw [unparenthesize, first_eq unparenthesizeFirst (fun _ => rfl)
    fun _ _ _ => by rw [unparenthesizeFirst]]
  rfl

theorem descends_origin : Descends (fun kind => kind = .parenthesized ∨ kind = .clone)
    Receiver.origin := by
  rintro ⟨kind, role, line, text, children⟩
  rw [Receiver.origin, first_eq Receiver.originFirst (fun _ => rfl)
    fun _ _ _ => by rw [Receiver.originFirst]]
  rfl

end Php.Node

namespace Near

variable {S : Spelling} {n n' : Node} {s s' : Scope}

theorem descend {is : Kind → Prop} [DecidablePred is] {f : Node → Node}
    (hf : Node.Descends is f) (his : ∀ kind, is kind → kind.isFunction = false)
    (h : Near S n n') : Near S (f n) (f n') := by
  induction n using Node.induction_on_children generalizing n' with
  | step n ih =>
    rw [hf n, hf n', h.head.kind]
    split
    · rename_i hkind
      have hhead := rel_head? (h.namedChildren (not_isOwner_of_kind (his _ hkind)))
      rcases rel_cases hhead with ⟨hnone, hnone'⟩ | ⟨c, c', hc, hc', hrel⟩
      · rw [hnone, hnone']
        exact h
      · rw [hc, hc']
        have hmem := Node.mem_children_of_mem_namedChildren (List.mem_of_head? hc)
        exact ih c hmem hrel
    · exact h

theorem unparenthesize (h : Near S n n') : Near S n.unparenthesize n'.unparenthesize :=
  h.descend Node.descends_unparenthesize (by rintro _ rfl; rfl)

theorem origin (h : Near S n n') : Near S (Receiver.origin n) (Receiver.origin n') :=
  h.descend Node.descends_origin (by rintro _ (rfl | rfl) <;> rfl)

/-- The argument lists of corresponding calls. -/
theorem arguments (h : Near S n n') :
    Option.Rel (fun a a' => List.Forall₂ (Near S) a.namedChildren a'.namedChildren)
      (n.child? .arguments) (n'.child? .arguments) :=
  rel_imp (h.child? .arguments) fun _ _ hrel =>
    hrel.2.namedChildren fun howner => howner.2.1 hrel.1

theorem isFirstClassCallable_eq (h : Near S n n') :
    n.isFirstClassCallable = n'.isFirstClassCallable := by
  unfold Node.isFirstClassCallable
  rcases rel_cases h.arguments with ⟨hnone, hnone'⟩ | ⟨a, a', ha, ha', hrel⟩
  · rw [hnone, hnone']
  · rw [ha, ha']
    exact rel_any hrel fun c c' hc => by rw [hc.head.kind]

theorem callArguments (h : Near S n n') :
    List.Forall₂ (Near S) n.callArguments n'.callArguments := by
  unfold Node.callArguments
  rcases rel_cases h.arguments with ⟨hnone, hnone'⟩ | ⟨a, a', ha, ha', hrel⟩
  · rw [hnone, hnone']
    exact .nil
  · rw [ha, ha']
    have hfilter := rel_filter_of_eq (p := (·.kind == .argument)) (q := (·.kind == .argument)) hrel
      fun c c' hc => by rw [hc.head.kind]
    have hkind : ∀ c ∈ a.namedChildren.filter (·.kind == .argument), c.kind = .argument :=
      fun c hc => by simpa using (List.mem_filter.mp hc).2
    refine List.rel_filterMap (fun c c' hc => ?_) ((List.forall₂_and_left _ _).mpr ⟨hkind, hfilter⟩)
    exact rel_getLast? (hc.2.namedChildren (not_isOwner_of_kind (by rw [hc.1]; rfl)))

theorem classConstant? (h : Near S n n') :
    n.classConstant?.map S.norm = n'.classConstant?.map S.norm := by
  by_cases hkind : n.kind = .classConstant
  · have hchildren := h.namedChildren (not_isOwner_of_kind (by rw [hkind]; rfl))
    unfold Node.classConstant?
    rw [h.head.kind, hkind]
    generalize n.namedChildren = cs at hchildren
    generalize n'.namedChildren = cs' at hchildren
    -- only two named children are a class constant
    rcases hchildren with _ | ⟨hscope, _ | ⟨hconstant, _ | _⟩⟩
    · rfl
    · rfl
    · simp only [hscope.head.kind, hconstant.head.any_sameLetters "class"]
      split
      · split
        · exact hscope.head.trimmed
        · exact hscope.head.literalName?
      · rfl
    · rfl
  · have hnone {m : Node} (hm : m.kind ≠ .classConstant) : m.classConstant? = none := by
      unfold Node.classConstant?
      split
      · exact absurd ‹_› hm
      · rfl
    rw [hnone hkind, hnone (by rw [h.head.kind]; exact hkind)]

theorem baseClass? (h : Near S n n') (hn : ¬n.IsOwner) :
    n.baseClass?.map S.norm = n'.baseClass?.map S.norm := by
  unfold Node.baseClass?
  rcases rel_cases (childOfKind?_of_children (h.children hn) .baseClause) with
    ⟨hnone, hnone'⟩ | ⟨base, base', hb, hb', hrel⟩
  · rw [hnone, hnone']
  · rw [hb, hb']
    have hkind : base.kind = .baseClause := by simpa using List.find?_some hb
    exact rel_findSome? (hrel.namedChildren (not_isOwner_of_kind (by rw [hkind]; rfl)))
      fun c c' hc => hc.head.literalName?

theorem created? (h : Near S n n') (hn : ¬n.IsOwner) (hs : s.Agree S s') :
    (Receiver.created? s n).map S.norm = (Receiver.created? s' n').map S.norm :=
  rel_bind_map (rel_find? (h.namedChildren hn) fun _ _ hc => hc.head.isClassName_eq)
    fun _ _ hc => hc.head.named? hs

theorem classes (h : Near S n n') (hs : s.Agree S s') :
    S.SameNames (Receiver.classes s n) (Receiver.classes s' n') := by
  have horigin := h.origin
  unfold Receiver.classes
  simp only [horigin.head.kind]
  split
  · rw [horigin.head.variableName?]
    split
    · exact hs.classesOf _
    · exact .of_map_eq rfl
  · rename_i hkind
    exact .of_option (horigin.created? (not_isOwner_of_kind (by rw [hkind]; rfl)) hs)
  · exact .of_map_eq rfl

end Near

theorem Receiver.typeNames_eq (s : Scope) (n : Node) :
    typeNames s n = if n.kind = .primitiveType then []
      else if isClassName n then (named? s n).toList
      else n.namedChildren.flatMap (typeNames s) := by
  have hall (children : List Node) :
      typeNamesAll s children = (children.filter Node.isNamed).flatMap (typeNames s) := by
    induction children with
    | nil => rfl
    | cons c rest ih =>
      rw [typeNamesAll, List.filter_cons, ih]
      split
      · rfl
      · rfl
  obtain ⟨kind, role, line, text, children⟩ := n
  rw [typeNames, hall]
  rfl

theorem Alike.typeNames {S : Spelling} {s s' : Scope} {n n' : Node} (h : Alike S none n n')
    (hs : s.Agree S s') :
    (Receiver.typeNames s n).map S.norm = (Receiver.typeNames s' n').map S.norm := by
  induction n using Node.induction_on_children generalizing n' with
  | step n ih =>
    rw [Receiver.typeNames_eq s n, Receiver.typeNames_eq s' n', h.head.kind, h.head.isClassName_eq]
    split
    · rfl
    · split
      · rw [← Option.toList_map, h.head.named? hs, Option.toList_map]
      · have hchildren := rel_filter_of_eq (p := Node.isNamed) (q := Node.isNamed)
          h.children_of_none fun _ _ hc => hc.head.isNamed_eq
        have hmem : ∀ c ∈ n.namedChildren, c ∈ n.children :=
          fun c => Node.mem_children_of_mem_namedChildren
        rw [List.map_flatMap, List.map_flatMap]
        exact rel_flatMap_eq ((List.forall₂_and_left _ _).mpr ⟨hmem, hchildren⟩)
          fun c c' hc => ih c hc.1 hc.2

/-- A declared type names the same classes. -/
theorem Near.ofType {S : Spelling} {s s' : Scope} {n n' : Node} (h : Near S n n')
    (hrole : n.role = .type) (hs : s.Agree S s') :
    S.SameNames (Receiver.ofType s n) (Receiver.ofType s' n') := by
  obtain ⟨hole, h⟩ := h
  exact .eraseDups ((h.none_of_type hrole).typeNames hs)

end Availability
