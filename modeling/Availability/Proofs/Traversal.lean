import Availability.Walk
import Mathlib.Data.List.Sigma
import Mathlib.Tactic.Common

/-!
# How a walk passes through a node

There are seven manners of passing through a node, and each visits a list of the node's children in
order, with their positions. `Walker.visitEach` visits such a list, and there is one equation for
`Walker.visit` per manner, so that later proofs open the walk no further. Every visited node stands
where its path says.
-/
namespace Availability

open Php

namespace Php.Node

/-- The node at a path below a node. -/
def at? (n : Node) : Path → Option Node
  | [] => some n
  | i :: path => n.children[i]?.bind fun c => c.at? path

@[simp] theorem at?_nil (n : Node) : n.at? [] = some n := rfl

@[simp] theorem at?_cons (n : Node) (i : Nat) (path : Path) :
    n.at? (i :: path) = n.children[i]?.bind fun c => c.at? path := rfl

/-- The position of the first child with a role. -/
def place? (n : Node) (role : Role) : Option Nat :=
  n.children.findIdx? (·.role == role)

/-- The named children with their positions. -/
def named (n : Node) : List (Node × Nat) :=
  n.children.zipIdx.filter (·.1.isNamed)

/-- The first child with a role and its position. -/
def first (n : Node) (role : Role) : List (Node × Nat) :=
  (n.children.zipIdx.find? (·.1.role == role)).toList

/-- The children with a role and their positions. -/
def every (n : Node) (role : Role) : List (Node × Nat) :=
  n.children.zipIdx.filter (·.1.role == role)

/-- What holds of a node if it holds of its children holds of every node. -/
@[elab_as_elim]
theorem induction_on_children {motive : Node → Prop} (n : Node)
    (step : ∀ n : Node, (∀ c ∈ n.children, motive c) → motive n) : motive n := by
  apply step
  intro c hc
  exact induction_on_children c step
termination_by sizeOf n
decreasing_by exact sizeOf_lt_of_mem_children hc

theorem getElem?_of_mem_named {n : Node} {c : Node × Nat} (h : c ∈ n.named) :
    n.children[c.2]? = some c.1 := by
  simpa using List.mem_zipIdx_iff_getElem?.mp (List.mem_filter.mp h).1

theorem getElem?_of_mem_first {n : Node} {role : Role} {c : Node × Nat} (h : c ∈ n.first role) :
    n.children[c.2]? = some c.1 := by
  have hc := List.mem_of_find?_eq_some (Option.mem_toList.mp h)
  simpa using List.mem_zipIdx_iff_getElem?.mp hc

theorem getElem?_of_mem_every {n : Node} {role : Role} {c : Node × Nat} (h : c ∈ n.every role) :
    n.children[c.2]? = some c.1 := by
  simpa using List.mem_zipIdx_iff_getElem?.mp (List.mem_filter.mp h).1

theorem role_of_mem_first {n : Node} {role : Role} {c : Node × Nat} (h : c ∈ n.first role) :
    c.1.role = role := by
  simpa using List.find?_some (Option.mem_toList.mp h)

theorem role_of_mem_every {n : Node} {role : Role} {c : Node × Nat} (h : c ∈ n.every role) :
    c.1.role = role := by
  simpa using (List.mem_filter.mp h).2

theorem nodup_named (n : Node) : (n.named.map Prod.snd).Nodup :=
  (List.nodup_zipIdx_map_snd n.children).sublist (List.filter_sublist.map _)

theorem nodup_every (n : Node) (role : Role) : ((n.every role).map Prod.snd).Nodup :=
  (List.nodup_zipIdx_map_snd n.children).sublist (List.filter_sublist.map _)

theorem nodup_first (n : Node) (role : Role) : ((n.first role).map Prod.snd).Nodup := by
  unfold first
  cases n.children.zipIdx.find? (·.1.role == role) <;> simp

theorem find?_zipIdx_snd (role : Role) (children : List Node) (k : Nat) :
    ((children.zipIdx k).find? (·.1.role == role)).map Prod.snd =
      (children.findIdx? (·.role == role)).map (· + k) := by
  induction children generalizing k with
  | nil => rfl
  | cons c rest ih =>
    by_cases h : c.role = role
    · simp [h, List.findIdx?_cons]
    · simp only [List.zipIdx_cons, List.find?_cons, beq_eq_false_iff_ne.mpr h, List.findIdx?_cons,
        Bool.false_eq_true, if_false, ih, Option.map_map]
      congr 1
      funext i
      simp only [Function.comp_apply]
      omega

/-- The first child with a role stands at the place of the role. -/
theorem place?_of_mem_first {n : Node} {role : Role} {c : Node × Nat} (h : c ∈ n.first role) :
    n.place? role = some c.2 := by
  have hsnd := find?_zipIdx_snd role n.children 0
  rw [Option.mem_toList.mp h] at hsnd
  simpa [place?] using hsnd.symm

theorem role_of_place? {n : Node} {role : Role} {i : Nat} (h : n.place? role = some i) :
    ∃ c, n.children[i]? = some c ∧ c.role = role := by
  obtain ⟨hi, hrole, -⟩ := List.findIdx?_eq_some_iff_getElem.mp h
  exact ⟨n.children[i], List.getElem?_eq_getElem hi, by simpa using hrole⟩

theorem position_ne {n : Node} {c d : Node × Nat} (hc : n.children[c.2]? = some c.1)
    (hd : n.children[d.2]? = some d.1) (hrole : c.1.role ≠ d.1.role) : c.2 ≠ d.2 := by
  intro heq
  rw [heq, hd, Option.some.injEq] at hc
  exact hrole (by rw [hc])

/-- A child has one role, so it stands at the place of no other. -/
theorem place?_ne {n c : Node} {role : Role} {i : Nat} (h : n.children[i]? = some c)
    (hrole : c.role ≠ role) : n.place? role ≠ some i := by
  intro hi
  obtain ⟨d, hd, hdrole⟩ := role_of_place? hi
  rw [h, Option.some.injEq] at hd
  exact hrole (hd ▸ hdrole)

theorem at?_append (n : Node) (p q : Path) : n.at? (p ++ q) = (n.at? p).bind (·.at? q) := by
  induction p generalizing n with
  | nil => rfl
  | cons i p ih =>
    simp only [List.cons_append, at?]
    cases n.children[i]? with
    | none => rfl
    | some c => exact ih c

theorem at?_concat (n : Node) (p : Path) (i : Nat) :
    n.at? (p ++ [i]) = (n.at? p).bind (·.children[i]?) := by
  rw [at?_append]
  congr 1
  funext m
  simp only [at?]
  cases m.children[i]? <;> rfl

end Php.Node

/-- How a walk passes through a node. -/
inductive Manner where
  | conditional
  | arrow
  | function
  | assignment
  | handler
  | classLike
  /-- All named children are visited; a call also comes into effect as a guard. -/
  | plain
  deriving DecidableEq

def Php.Kind.manner : Kind → Manner
  | .ifStatement | .elseIfClause => .conditional
  | .arrowFunction => .arrow
  | .function | .method | .closure => .function
  | .assignment | .referenceAssignment => .assignment
  | .catchClause => .handler
  | .classDeclaration | .interfaceDeclaration | .traitDeclaration | .enumDeclaration
  | .anonymousClass => .classLike
  | _ => .plain

namespace Php.Kind

def isConditional (kind : Kind) : Bool :=
  kind == .ifStatement || kind == .elseIfClause

/-- Functions with a scope of their own, which arrow functions do not have. -/
def isFunction (kind : Kind) : Bool :=
  kind == .function || kind == .method || kind == .closure

theorem manner_eq_conditional {kind : Kind} :
    kind.manner = .conditional ↔ kind.isConditional = true := by
  cases kind <;> decide

theorem manner_eq_function {kind : Kind} : kind.manner = .function ↔ kind.isFunction = true := by
  cases kind <;> decide

end Php.Kind

theorem Guard.ofCall?_of_ne {scope : Scope} {n : Node} (h : n.kind ≠ .functionCall) :
    Guard.ofCall? scope n = none := by
  simp [Guard.ofCall?, h]

namespace Walker

/-- Visits children in order. -/
def visitEach (path : Path) : List (Node × Nat) → Walker → Walker × List Visit
  | [], w => (w, [])
  | c :: rest, w =>
    let first := visit (path ++ [c.2]) c.1 w
    let others := visitEach path rest first.1
    (others.1, first.2 ++ others.2)

theorem visitAll_eq (path : Path) (i : Nat) (children : List Node) (w : Walker) :
    visitAll path i children w =
      visitEach path ((children.zipIdx i).filter (·.1.isNamed)) w := by
  induction children generalizing i w with
  | nil => rw [visitAll]; rfl
  | cons n rest ih =>
    rw [visitAll, List.zipIdx_cons, List.filter_cons]
    by_cases h : n.isNamed = true
    · simp [h, visitEach, ih]
    · simp [h, ih]

theorem visitFirst_eq (role : Role) (path : Path) (i : Nat) (children : List Node) (w : Walker) :
    visitFirst role path i children w =
      visitEach path ((children.zipIdx i).find? (·.1.role == role)).toList w := by
  induction children generalizing i with
  | nil => rw [visitFirst]; rfl
  | cons n rest ih =>
    rw [visitFirst, List.zipIdx_cons]
    by_cases h : n.role = role
    · simp [h, visitEach]
    · simp [beq_eq_false_iff_ne.mpr h, h, ih]

theorem visitEvery_eq (role : Role) (path : Path) (i : Nat) (children : List Node) (w : Walker) :
    visitEvery role path i children w =
      visitEach path ((children.zipIdx i).filter (·.1.role == role)) w := by
  induction children generalizing i w with
  | nil => rw [visitEvery]; rfl
  | cons n rest ih =>
    rw [visitEvery, List.zipIdx_cons, List.filter_cons]
    by_cases h : n.role = role
    · simp [h, visitEach, ih]
    · simp [h, ih]

theorem observe_of_ne {w : Walker} {n : Node} (h : n.kind ≠ .functionCall) : w.observe n = w := by
  simp [observe, Guard.ofCall?_of_ne h]

variable {path : Path} {n : Node} {w : Walker}

/-- An assignment binds a variable at most. -/
theorem recordAssignment_eq (w : Walker) (n : Node) :
    w.recordAssignment n = w ∨
      ∃ name classes, w.recordAssignment n = { w with scope := w.scope.assign name classes } := by
  unfold recordAssignment
  split
  · split
    · exact .inl rfl
    · split
      · exact .inl rfl
      · exact .inr ⟨_, _, rfl⟩
  · exact .inl rfl

/-- A `catch` binds a variable at most. -/
theorem recordCatch_eq (w : Walker) (n : Node) :
    w.recordCatch n = w ∨
      ∃ name classes, w.recordCatch n = { w with scope := w.scope.assign name classes } := by
  unfold recordCatch
  split
  · exact .inl rfl
  · split
    · exact .inr ⟨_, _, rfl⟩
    · exact .inr ⟨_, _, rfl⟩

/-- The first part of passing through a conditional: its condition. -/
def visitCondition (path : Path) (n : Node) (w : Walker) : Walker × List Visit :=
  visitEach path (n.first .condition) { w with guards := w.guards.enter, inTest := true }

/-- The second part: its body. -/
def visitBody (path : Path) (n : Node) (w : Walker) : Walker × List Visit :=
  visitEach path (n.first .body) { (visitCondition path n w).1 with inTest := w.inTest }

/-- The last part: its alternatives. -/
def visitAlternatives (path : Path) (n : Node) (w : Walker) : Walker × List Visit :=
  visitEach path (n.every .alternative)
    { (visitBody path n w).1 with guards := (visitBody path n w).1.guards.leave }

theorem visit_conditional (h : n.kind.manner = .conditional) :
    visit path n w = ((visitAlternatives path n w).1,
      ⟨path, n, w⟩ :: ((visitCondition path n w).2 ++ (visitBody path n w).2 ++
        (visitAlternatives path n w).2)) := by
  obtain ⟨kind, role, line, text, children⟩ := n
  cases kind <;> first | contradiction | simp [visit, visitFirst_eq, visitEvery_eq, Node.first,
    Node.every, Node.children, visitAlternatives, visitBody, visitCondition]

theorem visit_arrow (h : n.kind.manner = .arrow) :
    visit path n w =
      let done := visitEach path (n.first .body) { w with scope := bindParameters n w.scope }
      ({ done.1 with scope := w.scope }, ⟨path, n, w⟩ :: done.2) := by
  obtain ⟨kind, role, line, text, children⟩ := n
  cases kind <;> first | contradiction | simp [visit, visitFirst_eq, Node.first, Node.children]

theorem visit_function (h : n.kind.manner = .function) :
    visit path n w =
      let done := visitEach path (n.first .body)
        { w with scope := w.functionScope n, nextScope := w.nextScope + 1, inTest := false }
      ({ done.1 with scope := w.scope, inTest := w.inTest }, ⟨path, n, w⟩ :: done.2) := by
  obtain ⟨kind, role, line, text, children⟩ := n
  cases kind <;> first | contradiction | simp [visit, visitFirst_eq, Node.first, Node.children]

theorem visit_assignment (h : n.kind.manner = .assignment) :
    visit path n w =
      let done := visitEach path n.named w
      (done.1.recordAssignment n, ⟨path, n, w⟩ :: done.2) := by
  obtain ⟨kind, role, line, text, children⟩ := n
  cases kind <;> first | contradiction | simp [visit, visitAll_eq, Node.named, Node.children]

theorem visit_handler (h : n.kind.manner = .handler) :
    visit path n w =
      let done := visitEach path n.named (w.recordCatch n)
      (done.1, ⟨path, n, w⟩ :: done.2) := by
  obtain ⟨kind, role, line, text, children⟩ := n
  cases kind <;> first | contradiction | simp [visit, visitAll_eq, Node.named, Node.children]

theorem visit_classLike (h : n.kind.manner = .classLike) :
    visit path n w =
      let done := visitEach path n.named { w with around := classContext n }
      ({ done.1 with around := w.around }, ⟨path, n, w⟩ :: done.2) := by
  obtain ⟨kind, role, line, text, children⟩ := n
  cases kind <;> first | contradiction | simp [visit, visitAll_eq, Node.named, Node.children]

theorem visit_plain (h : n.kind.manner = .plain) :
    visit path n w =
      let done := visitEach path n.named (w.observe n)
      (done.1, ⟨path, n, w.observe n⟩ :: done.2) := by
  obtain ⟨kind, role, line, text, children⟩ := n
  have hw : kind ≠ .functionCall → w.observe (.mk kind role line text children) = w :=
    fun hkind => observe_of_ne hkind
  -- only a function call is a guard, so that any other walker is the observed one
  cases kind <;> first | contradiction | simp [visit, visitAll_eq, Node.named, Node.children, hw]

theorem mem_visitEach {children : List (Node × Nat)} {v : Visit}
    (h : v ∈ (visitEach path children w).2) :
    ∃ c ∈ children, ∃ before, v ∈ (visit (path ++ [c.2]) c.1 before).2 := by
  induction children generalizing w with
  | nil => simp [visitEach] at h
  | cons c rest ih =>
    rcases List.mem_append.mp h with hv | hv
    · exact ⟨c, by simp, w, hv⟩
    · obtain ⟨d, hd, before, hv⟩ := ih hv
      exact ⟨d, by simp [hd], before, hv⟩

/-- A visit is of the node itself or of what is below one of its children. -/
theorem mem_visit {v : Visit} (h : v ∈ (visit path n w).2) :
    (v.path = path ∧ v.node = n) ∨
      ∃ c i before, n.children[i]? = some c ∧ v ∈ (visit (path ++ [i]) c before).2 := by
  have itself {here : Walker} (hv : v = ⟨path, n, here⟩) : v.path = path ∧ v.node = n := by
    rw [hv]
    exact ⟨rfl, rfl⟩
  have below {children : List (Node × Nat)} {before : Walker}
      (hchildren : ∀ c ∈ children, n.children[c.2]? = some c.1)
      (hv : v ∈ (visitEach path children before).2) :
      ∃ c i before, n.children[i]? = some c ∧ v ∈ (visit (path ++ [i]) c before).2 := by
    obtain ⟨c, hc, before, hv⟩ := mem_visitEach hv
    exact ⟨c.1, c.2, before, hchildren c hc, hv⟩
  have named {before : Walker} := @below n.named before fun _ => Node.getElem?_of_mem_named
  have first {role : Role} {before : Walker} :=
    @below (n.first role) before fun _ => Node.getElem?_of_mem_first
  have every {role : Role} {before : Walker} :=
    @below (n.every role) before fun _ => Node.getElem?_of_mem_every
  cases hm : n.kind.manner with
  | conditional =>
    rw [visit_conditional hm] at h
    rcases List.mem_cons.mp h with hv | hv
    · exact .inl (itself hv)
    · rcases List.mem_append.mp hv with hv | hv
      · rcases List.mem_append.mp hv with hv | hv
        · exact .inr (first hv)
        · exact .inr (first hv)
      · exact .inr (every hv)
  | arrow =>
    rw [visit_arrow hm] at h
    exact (List.mem_cons.mp h).imp itself first
  | function =>
    rw [visit_function hm] at h
    exact (List.mem_cons.mp h).imp itself first
  | assignment =>
    rw [visit_assignment hm] at h
    exact (List.mem_cons.mp h).imp itself named
  | handler =>
    rw [visit_handler hm] at h
    exact (List.mem_cons.mp h).imp itself named
  | classLike =>
    rw [visit_classLike hm] at h
    exact (List.mem_cons.mp h).imp itself named
  | plain =>
    rw [visit_plain hm] at h
    exact (List.mem_cons.mp h).imp itself named

/-- A visited node stands where its path says. -/
theorem at?_of_mem_visit {v : Visit} (h : v ∈ (visit path n w).2) :
    ∃ below, v.path = path ++ below ∧ n.at? below = some v.node := by
  induction n using Node.induction_on_children generalizing path w with
  | step n ih =>
    rcases mem_visit h with ⟨hpath, hnode⟩ | ⟨c, i, before, hc, hv⟩
    · exact ⟨[], by simp [hpath], by simp [hnode]⟩
    · obtain ⟨below, hpath, hat⟩ := ih c (List.mem_of_getElem? hc) hv
      exact ⟨i :: below, by simp [hpath], by simp [hc, hat]⟩

theorem prefix_of_mem_visit {v : Visit} (h : v ∈ (visit path n w).2) : path <+: v.path := by
  obtain ⟨below, hpath, -⟩ := at?_of_mem_visit h
  exact ⟨below, hpath.symm⟩

end Walker

theorem at?_of_mem_visits {tree : Node} {v : Visit} (h : v ∈ visits tree) :
    tree.at? v.path = some v.node := by
  obtain ⟨below, hpath, hat⟩ := Walker.at?_of_mem_visit h
  simpa [hpath] using hat

end Availability
