import Availability.Proofs.Enclosure
import Availability.Proofs.Moments
import Availability.Proofs.Reading

/-!
# Bindings of variables

A variable is bound by parameters, by what a closure takes over, by assignments and by `catch`. Here
each of these is a record of its own with the place that it belongs to, and it is said by places
alone where it can be seen. The walk binds what these records say, in their order.
-/
namespace Availability

open Php

/-- A variable gets classes, inside of the function that has the place in it. -/
structure Binding where
  place : Path
  name : String
  classes : List String
  deriving DecidableEq

/-- The classes that a declaration names for what it declares. -/
def declaredClasses (scope : Scope) (n : Node) : List String :=
  (n.child? .type).elim [] (Receiver.ofType scope)

namespace Binding

/-- A simple or promoted parameter whose name is written as a plain variable. -/
def parameter? (place : Path) (scope : Scope) (n : Node) : Option Binding :=
  if n.kind = .parameter ∨ n.kind = .promotedParameter then
    ((n.child? .name).bind Node.variableName?).map fun name =>
      ⟨place, name, declaredClasses scope n⟩
  else none

/-- The parameters of the function at a path, at the place of their list. A property hook is no
function, so what stands in its list binds nothing. -/
def parameters (path : Path) (n : Node) (scope : Scope) : List Binding :=
  (n.first .parameters).flatMap fun list =>
    list.1.namedChildren.filterMap (parameter? (path ++ [list.2]) scope)

/-- What the closure at a path takes over from the scope around, at the place of its `use`
clause. -/
def captures (path : Path) (n : Node) (outer : Scope) : List Binding :=
  (n.named.find? (·.1.kind == .captures)).toList.flatMap fun clause =>
    (clause.1.namedChildren.filterMap Walker.captured?).map fun name =>
      ⟨path ++ [clause.2], name, outer.classesOf name⟩

/-- The variable of the `catch` at a path. -/
def handler (path : Path) (n : Node) (scope : Scope) : List Binding :=
  (((n.child? .name).bind Node.variableName?).map fun name =>
    ⟨path, name, declaredClasses scope n⟩).toList

/-- The variable on the left side of the assignment at a path. -/
def assignment (path : Path) (n : Node) (scope : Scope) : List Binding :=
  match n.child? .left, n.child? .right with
  | some left, some right =>
    (left.variableName?.map fun name => ⟨path, name, Receiver.classes scope right⟩).toList
  | _, _ => []

end Binding

/-- What is bound on arriving at a node: the parameters of a function and what it takes over, and
the variable of a `catch`. -/
def Visit.arrivalBindings (v : Visit) : List Binding :=
  match v.node.kind.manner with
  | .function =>
    Binding.captures v.path v.node v.walker.scope ++
      Binding.parameters v.path v.node (v.walker.functionScope v.node)
  | .arrow => Binding.parameters v.path v.node v.walker.scope
  | .handler => Binding.handler v.path v.node v.walker.scope
  | _ => []

/-- What is bound on departing from a node: an assignment is complete when both of its sides have
been visited. -/
def Visit.departureBindings (v : Visit) : List Binding :=
  match v.node.kind.manner with
  | .assignment =>
    Binding.assignment v.path v.node (Walker.visitEach v.path v.node.named v.walker).1.scope
  | _ => []

def Moment.bindings : Moment → List Binding
  | .arrival v => v.arrivalBindings
  | .departure v => v.departureBindings

def Php.Kind.isArrow (kind : Kind) : Bool :=
  kind == .arrowFunction

/-- A binding can be seen at a place that has the same innermost function around it, and all arrow
functions that the binding has around it. -/
def Visible (tree : Node) (p : Path) (b : Binding) : Prop :=
  tree.innermost? Kind.isFunction b.place = tree.innermost? Kind.isFunction p ∧
    ∀ a ∈ tree.around Kind.isArrow b.place, a ∈ tree.around Kind.isArrow p

instance (tree : Node) (p : Path) (b : Binding) : Decidable (Visible tree p b) :=
  inferInstanceAs (Decidable (_ ∧ _))

/-- The last binding of a variable that can be seen at a place. -/
def latest? (tree : Node) (p : Path) (name : String) (bindings : List Binding) : Option Binding :=
  (bindings.filter fun b => b.name = name ∧ Visible tree p b).getLast?

section Places

variable {tree n : Node} {p : Path} {b : Binding} {i : Nat} {scope : Scope}

theorem Binding.place_of_mem_parameters (h : b ∈ Binding.parameters p n scope) :
    ∃ i, b.place = p ++ [i] := by
  obtain ⟨list, -, hb⟩ := List.mem_flatMap.mp h
  obtain ⟨parameter, -, hb⟩ := List.mem_filterMap.mp hb
  unfold Binding.parameter? at hb
  split at hb
  · obtain ⟨name, -, rfl⟩ := Option.map_eq_some_iff.mp hb
    exact ⟨list.2, rfl⟩
  · cases hb

theorem Binding.place_of_mem_captures (h : b ∈ Binding.captures p n scope) :
    ∃ i, b.place = p ++ [i] := by
  obtain ⟨clause, -, hb⟩ := List.mem_flatMap.mp h
  obtain ⟨name, -, rfl⟩ := List.mem_map.mp hb
  exact ⟨clause.2, rfl⟩

theorem Binding.place_of_mem_handler (h : b ∈ Binding.handler p n scope) : b.place = p := by
  obtain ⟨name, -, rfl⟩ := Option.map_eq_some_iff.mp (Option.mem_toList.mp h)
  rfl

theorem Binding.place_of_mem_assignment (h : b ∈ Binding.assignment p n scope) : b.place = p := by
  unfold Binding.assignment at h
  split at h
  · obtain ⟨name, -, rfl⟩ := Option.map_eq_some_iff.mp (Option.mem_toList.mp h)
    rfl
  · cases h

/-- A function binds inside of itself. -/
theorem Visit.exists_place_of_function {v : Visit} (h : b ∈ v.arrivalBindings)
    (hkind : v.node.kind.manner = .function ∨ v.node.kind.manner = .arrow) :
    ∃ i, b.place = v.path ++ [i] := by
  unfold Visit.arrivalBindings at h
  rcases hkind with hkind | hkind <;> simp only [hkind] at h
  · rcases List.mem_append.mp h with h | h
    · exact Binding.place_of_mem_captures h
    · exact Binding.place_of_mem_parameters h
  · exact Binding.place_of_mem_parameters h

theorem Visit.place_of_mem_arrivalBindings {v : Visit} (h : b ∈ v.arrivalBindings) :
    b.place = v.path ∨ ∃ i, b.place = v.path ++ [i] := by
  by_cases hkind : v.node.kind.manner = .function ∨ v.node.kind.manner = .arrow
  · exact .inr (v.exists_place_of_function h hkind)
  · obtain ⟨hfunction, harrow⟩ := not_or.mp hkind
    unfold Visit.arrivalBindings at h
    split at h
    · contradiction
    · contradiction
    · exact .inl (Binding.place_of_mem_handler h)
    · cases h

theorem Php.Kind.manner_eq_arrow {kind : Kind} : kind.manner = .arrow ↔ kind.isArrow = true := by
  cases kind <;> decide

/-- A node that is no function hides nothing. -/
theorem visible_concat (hn : tree.at? p = some n) (hfunction : ¬n.kind.isFunction = true)
    (harrow : ¬n.kind.isArrow = true) : Visible tree (p ++ [i]) b ↔ Visible tree p b := by
  rw [Visible, Node.innermost?_concat hn, Node.around_concat hn, if_neg hfunction, if_neg harrow,
    List.append_nil, Visible]

/-- What is bound outside of an arrow function is seen in it. -/
theorem visible_concat_of_arrow (hn : tree.at? p = some n) (hkind : n.kind.isArrow = true)
    (hb : ¬Encloses p b.place) : Visible tree (p ++ [i]) b ↔ Visible tree p b := by
  have hfunction : ¬n.kind.isFunction = true := by
    revert hkind
    cases n.kind <;> decide
  have hp : p ∉ tree.around Kind.isArrow b.place := fun hmem => hb (Node.mem_around_iff.mp hmem).1
  rw [Visible, Node.innermost?_concat hn, Node.around_concat hn, if_neg hfunction, if_pos hkind,
    Visible]
  refine and_congr_right fun _ => forall₂_congr fun a ha => ?_
  rw [List.mem_append, List.mem_singleton, or_iff_left]
  rintro rfl
  exact hp ha

/-- What is bound outside of a function is not seen in it. -/
theorem not_visible_concat_of_function (hn : tree.at? p = some n)
    (hkind : n.kind.isFunction = true) (hb : ¬Encloses p b.place) : ¬Visible tree (p ++ [i]) b := by
  rintro ⟨hinner, -⟩
  rw [Node.innermost?_concat hn, if_pos hkind] at hinner
  exact hb (Node.mem_around_iff.mp (Node.mem_around_of_innermost? hinner)).1

/-- What is bound inside of a function is not seen outside. -/
theorem not_visible_of_encloses (hn : tree.at? p = some n)
    (hkind : n.kind.isFunction = true ∨ n.kind.isArrow = true) (hb : Encloses p b.place) :
    ¬Visible tree p b := by
  rintro ⟨hinner, harrows⟩
  rcases hkind with hkind | hkind
  · exact Node.innermost?_ne_of_mem_around (Node.mem_around_iff.mpr ⟨hb, n, hn, hkind⟩) hinner
  · exact Node.not_mem_around_self (harrows p (Node.mem_around_iff.mpr ⟨hb, n, hn, hkind⟩))

/-- The children of a node see the same. -/
theorem visible_sibling (hn : tree.at? p = some n) (j : Nat) :
    Visible tree (p ++ [i]) b ↔ Visible tree (p ++ [j]) b := by
  simp only [Visible, Node.innermost?_concat hn, Node.around_concat hn]

theorem visible_self (hb : b.place = p) : Visible tree p b := by
  rw [Visible, hb]
  exact ⟨rfl, fun _ => id⟩

/-- What stands directly below a node is seen by all of its children. -/
theorem visible_child (hn : tree.at? p = some n) {k : Nat} (hb : b.place = p ++ [k]) :
    Visible tree (p ++ [i]) b :=
  (visible_sibling hn k).mpr (visible_self hb)

end Places

section Latest

variable {tree : Node} {p q : Path} {x : String} {log more : List Binding}

theorem latest?_append :
    latest? tree p x (log ++ more) = (latest? tree p x more).or (latest? tree p x log) := by
  rw [latest?, List.filter_append, List.getLast?_append, latest?, latest?]

theorem latest?_congr (h : ∀ b ∈ log, Visible tree p b ↔ Visible tree q b) :
    latest? tree p x log = latest? tree q x log := by
  unfold latest?
  congr 1
  refine List.filter_congr fun b hb => ?_
  rw [decide_eq_decide, h b hb]

theorem latest?_eq_none (h : ∀ b ∈ log, ¬Visible tree p b) : latest? tree p x log = none := by
  rw [latest?, List.getLast?_eq_none_iff, List.filter_eq_nil_iff]
  intro b hb hseen
  exact h b hb (of_decide_eq_true hseen).2

end Latest

/-- The scope after bindings, one after another. -/
def Scope.bindAll (s : Scope) (bindings : List Binding) : Scope :=
  bindings.foldl (fun s b => s.assign b.name b.classes) s

namespace Scope

variable {s s' : Scope}

theorem bindAll_append (a b : List Binding) : s.bindAll (a ++ b) = (s.bindAll a).bindAll b :=
  List.foldl_append

/-- Of bindings that can all be seen, the last one of a variable counts. -/
theorem classesOf_bindAll {tree : Node} {p : Path} {x : String} (hx : x ≠ "this")
    {bindings : List Binding} (h : ∀ b ∈ bindings, Visible tree p b) :
    (s.bindAll bindings).classesOf x =
      (latest? tree p x bindings).elim (s.classesOf x) (·.classes) := by
  induction bindings generalizing s with
  | nil => rfl
  | cons b rest ih =>
    have hb := h b List.mem_cons_self
    rw [← List.singleton_append, bindAll_append, latest?_append,
      ih fun c hc => h c (List.mem_cons_of_mem b hc)]
    cases latest? tree p x rest with
    | some c => rfl
    | none =>
      rw [Option.none_or, Option.elim_none, bindAll, List.foldl_cons, List.foldl_nil,
        classesOf_assign]
      by_cases hname : b.name = x
      · simp [latest?, hname, hb, hx]
      · simp [latest?, hname, Ne.symm hname]

theorem Rebound.named? (h : s.Rebound s') : Receiver.named? s' = Receiver.named? s := by
  have hresolve : s'.resolve? = s.resolve? := by
    funext name
    rw [Scope.resolve?, h.class?, h.parent?, Scope.resolve?]
  funext n
  simp only [Receiver.named?, hresolve]

/-- Declared types do not depend on what is bound. -/
theorem Rebound.typeNames (h : s.Rebound s') (n : Node) :
    Receiver.typeNames s' n = Receiver.typeNames s n := by
  induction n using Node.induction_on_children with
  | step n ih =>
    rw [Receiver.typeNames_eq, h.named?, Receiver.typeNames_eq]
    split
    · rfl
    · split
      · rfl
      · exact List.flatMap_congr fun c hc => ih c (Node.mem_children_of_mem_namedChildren hc)

theorem Rebound.declaredClasses (h : s.Rebound s') (n : Node) :
    Availability.declaredClasses s' n = Availability.declaredClasses s n := by
  unfold Availability.declaredClasses
  cases n.child? .type with
  | none => rfl
  | some type =>
    rw [Option.elim_some, Option.elim_some, Receiver.ofType, h.typeNames, Receiver.ofType]

end Scope

namespace Php.Node

theorem child?_eq_first (n : Node) (role : Role) :
    n.child? role = (n.first role).head?.map Prod.fst := by
  have hfind : n.children.find? (·.role == role) =
      (n.children.zipIdx.find? (·.1.role == role)).map Prod.fst := by
    conv_lhs => rw [← List.zipIdx_map_fst 0 n.children, List.find?_map]
    rfl
  rw [child?, hfind, first, Option.head?_toList]

theorem namedChildren_eq_named (n : Node) : n.namedChildren = n.named.map Prod.fst := by
  conv_lhs => rw [namedChildren, ← List.zipIdx_map_fst 0 n.children, List.filter_map]
  rfl

end Php.Node

namespace Walker

variable {path : Path} {n : Node} {s scope : Scope} {w : Walker}

theorem bindParameter_eq (place : Path) (h : scope.Rebound s) (n : Node) :
    bindParameter s n = s.bindAll (Binding.parameter? place scope n).toList := by
  have hdeclared := h.declaredClasses n
  unfold declaredClasses at hdeclared
  unfold bindParameter Binding.parameter? declaredClasses
  by_cases hkind : n.kind = .parameter ∨ n.kind = .promotedParameter
  · rw [if_pos (by simpa using hkind), if_pos hkind]
    cases (n.child? .name).bind Node.variableName? with
    | none => rfl
    | some name =>
      rw [← hdeclared]
      cases n.child? .type <;> rfl
  · rw [if_neg (by simpa using hkind), if_neg hkind]
    rfl

theorem foldl_bindParameter_eq (place : Path) (h : scope.Rebound s) (list : List Node) :
    list.foldl bindParameter s =
      s.bindAll (list.filterMap (Binding.parameter? place scope)) := by
  induction list generalizing s with
  | nil => rfl
  | cons n rest ih =>
    rw [List.foldl_cons, ih (h.trans (bindParameter_rebound s n)), bindParameter_eq place h,
      ← Scope.bindAll_append, List.filterMap_cons]
    cases Binding.parameter? place scope n <;> rfl

theorem bindParameters_eq (path : Path) (h : scope.Rebound s) (n : Node) :
    bindParameters n s = s.bindAll (Binding.parameters path n scope) := by
  unfold bindParameters Binding.parameters
  rw [Node.child?_eq_first, Node.first]
  cases n.children.zipIdx.find? (·.1.role == .parameters) with
  | none => rfl
  | some list =>
    simpa using foldl_bindParameter_eq (path ++ [list.2]) h list.1.namedChildren

theorem bindCaptures_eq (path : Path) (n : Node) (outer s : Scope) :
    bindCaptures n outer s = s.bindAll (Binding.captures path n outer) := by
  unfold bindCaptures Binding.captures
  rw [Node.childOfKind?, Node.namedChildren_eq_named, List.find?_map]
  cases hclause : n.named.find? (·.1.kind == .captures) with
  | none =>
    have hnone : n.named.find? ((fun c : Node => c.kind == .captures) ∘ Prod.fst) = none := hclause
    rw [hnone]
    rfl
  | some clause =>
    have hsome : n.named.find? ((fun c : Node => c.kind == .captures) ∘ Prod.fst) = some clause :=
      hclause
    rw [hsome]
    simp [Scope.bindAll, List.foldl_map]

theorem functionScope_eq (path : Path) (w : Walker) (n : Node) :
    w.functionScope n =
      (w.ownScope n).bindAll (Binding.captures path n w.scope ++
        Binding.parameters path n (w.functionScope n)) := by
  have hrebound : (w.functionScope n).Rebound (bindCaptures n w.scope (w.ownScope n)) :=
    (bindParameters_rebound n _).symm
  rw [Scope.bindAll_append, ← bindCaptures_eq]
  exact bindParameters_eq path hrebound n

theorem recordCatch_scope (path : Path) (w : Walker) (n : Node) :
    (w.recordCatch n).scope = w.scope.bindAll (Binding.handler path n w.scope) := by
  unfold recordCatch Binding.handler declaredClasses
  cases (n.child? .name).bind Node.variableName? with
  | none => rfl
  | some name => cases n.child? .type <;> rfl

theorem classesOf_recordAssignment (path : Path) (w : Walker) (n : Node) {x : String}
    (hx : x ≠ "this") :
    (w.recordAssignment n).scope.classesOf x =
      (w.scope.bindAll (Binding.assignment path n w.scope)).classesOf x := by
  unfold recordAssignment Binding.assignment
  cases n.child? .left with
  | none => rfl
  | some left =>
    cases n.child? .right with
    | none => rfl
    | some right =>
      cases hname : left.variableName? with
      | none => simp [hname, Scope.bindAll]
      | some name =>
        by_cases hthis : name = "this"
        · simp [hname, hthis, Scope.bindAll, Scope.classesOf_assign, hx]
        · simp [hname, hthis, Scope.bindAll]

end Walker

end Availability
