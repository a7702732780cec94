import Availability.Proofs.Evaluation
import Availability.Proofs.Tour

/-!
# The moves of a walk

A walk through a node is a list of moves: frames of guards are opened and closed, parts of the node
are entered and left, calls are registered as guards and reported, variables are bound. Doing these
moves one after another comes to the same as visiting the node, and shows every state in between.
-/
namespace Availability

open Php

/-- What a walk takes on for a part of a node and puts back after it. -/
inductive Part where
  | test
  | arrow (n : Node)
  | function (n : Node)
  | classLike (n : Node)

namespace Part

/-- The walker inside of a part, from the one before it. -/
def inside (w : Walker) : Part → Walker
  | test => { w with inTest := true }
  | arrow n => { w with scope := Walker.bindParameters n w.scope }
  | function n =>
    { w with scope := w.functionScope n, nextScope := w.nextScope + 1, inTest := false }
  | classLike n => { w with around := Walker.classContext n }

/-- The walker after a part, from the one before it and the one at its end. -/
def after (before w : Walker) : Part → Walker
  | test => { w with inTest := before.inTest }
  | arrow _ => { w with scope := before.scope }
  | function _ => { w with scope := before.scope, inTest := before.inTest }
  | classLike _ => { w with around := before.around }

end Part

/-- A single change in the course of a walk. -/
inductive Move where
  | openFrame
  | closeFrame
  | enter (part : Part)
  | leave (part : Part)
  /-- A call in a condition comes into effect as a guard. -/
  | register (call : Node)
  | report (path : Path) (call : Node)
  | assign (n : Node)
  | handle (n : Node)

/-- A walk over a file that reports as it goes. -/
structure Journey where
  walker : Walker := {}
  /-- The walkers before the parts that are entered and not left yet, innermost first. -/
  outer : List Walker := []
  diagnostics : List Diagnostic := []

/-- Children that are visited inside of a part. -/
def Part.around (part : Part) (children : List (Node × Nat)) : List (Move ⊕ Node × Nat) :=
  .inl (.enter part) :: (children.map .inr ++ [.inl (.leave part)])

@[simp] theorem Part.inr_mem_around_iff {part : Part} {children : List (Node × Nat)}
    {c : Node × Nat} : .inr c ∈ part.around children ↔ c ∈ children := by
  simp [around]

namespace Php.Node

/-- The stages of a walk through a node: moves, and children with their positions. -/
def stages (n : Node) : List (Move ⊕ Node × Nat) :=
  match n.kind.manner with
  | .conditional =>
    .inl .openFrame :: (Part.test.around (n.first .condition) ++ ((n.first .body).map .inr ++
      .inl .closeFrame :: (n.every .alternative).map .inr))
  | .arrow => (Part.arrow n).around (n.first .body)
  | .function => (Part.function n).around (n.first .body)
  | .assignment => n.named.map .inr ++ [.inl (.assign n)]
  | .handler => .inl (.handle n) :: n.named.map .inr
  | .classLike => (Part.classLike n).around n.named
  | .plain => n.named.map .inr

theorem getElem?_of_mem_stages {n : Node} {c : Node × Nat} (h : .inr c ∈ n.stages) :
    n.children[c.2]? = some c.1 := by
  cases hm : n.kind.manner with
  | conditional =>
    have hc : c ∈ n.first .condition ∨ c ∈ n.first .body ∨ c ∈ n.every .alternative := by
      simpa [stages, hm] using h
    rcases hc with hc | hc | hc
    · exact getElem?_of_mem_first hc
    · exact getElem?_of_mem_first hc
    · exact getElem?_of_mem_every hc
  | arrow | function => exact getElem?_of_mem_first (by simpa [stages, hm] using h)
  | assignment | handler | classLike | plain =>
    exact getElem?_of_mem_named (by simpa [stages, hm] using h)

/-- The moves of a walk through a node and what is below it. -/
def moves (path : Path) (n : Node) : List Move :=
  (if n.isCall then [.register n, .report path n] else []) ++
    n.stages.attach.flatMap fun stage =>
      match stage with
      | ⟨.inl move, _⟩ => [move]
      | ⟨.inr c, _⟩ => c.1.moves (path ++ [c.2])
termination_by sizeOf n
decreasing_by
  exact sizeOf_lt_of_mem_children (List.mem_of_getElem? (getElem?_of_mem_stages ‹_›))

/-- The moves of a stage of a walk. -/
def movesAt (path : Path) : Move ⊕ Node × Nat → List Move
  | .inl move => [move]
  | .inr c => c.1.moves (path ++ [c.2])

theorem moves_eq (path : Path) (n : Node) :
    n.moves path = (if n.isCall then [.register n, .report path n] else []) ++
      n.stages.flatMap (movesAt path) := by
  have hstage (stage : Move ⊕ Node × Nat) (h : stage ∈ n.stages) :
      (match (⟨stage, h⟩ : { stage // stage ∈ n.stages }) with
        | ⟨.inl move, _⟩ => [move]
        | ⟨.inr c, _⟩ => c.1.moves (path ++ [c.2])) = movesAt path stage := by
    cases stage <;> rfl
  rw [moves, List.flatMap_subtype hstage, List.unattach_attach]

theorem manner_of_isCall {n : Node} (h : n.isCall = true) : n.kind.manner = .plain := by
  simp only [isCall, Bool.or_eq_true, beq_iff_eq] at h
  rcases h with ((h | h) | h) | h <;> rw [h] <;> rfl

end Php.Node

theorem Walker.observe_of_not_isCall {w : Walker} {n : Node} (h : n.isCall = false) :
    w.observe n = w := by
  refine observe_of_ne fun hkind => ?_
  simp [Node.isCall, hkind] at h

theorem Candidate.ofCall?_of_not_isCall (known : Classes) (scope : Scope) {n : Node}
    (h : n.isCall = false) : Candidate.ofCall? known scope n = none := by
  simp only [Node.isCall, Bool.or_eq_false_iff, beq_eq_false_iff_ne] at h
  obtain ⟨⟨⟨hfunction, hmethod⟩, hnullsafe⟩, hstatic⟩ := h
  unfold ofCall?
  split
  · contradiction
  · contradiction
  · contradiction
  · contradiction
  · rfl

/-- Only calls are reported. -/
theorem Policy.report_of_not_isCall (p : Policy) (file : String) (path : Path) {n : Node}
    (w : Walker) (h : n.isCall = false) : p.report file ⟨path, n, w⟩ = none := by
  rw [report, check, Candidate.ofCall?_of_not_isCall p.classes w.scope h]
  rfl

namespace Journey

variable (p : Policy) (file : String)

def perform (s : Journey) : Move → Journey
  | .openFrame => { s with walker := { s.walker with guards := s.walker.guards.enter } }
  | .closeFrame => { s with walker := { s.walker with guards := s.walker.guards.leave } }
  | .enter part => { s with walker := part.inside s.walker, outer := s.walker :: s.outer }
  | .leave part =>
    match s.outer with
    | [] => s
    | before :: outer => { s with walker := part.after before s.walker, outer := outer }
  | .register call => { s with walker := s.walker.observe call }
  | .report path call =>
    { s with diagnostics := s.diagnostics ++ (p.report file ⟨path, call, s.walker⟩).toList }
  | .assign n => { s with walker := s.walker.recordAssignment n }
  | .handle n => { s with walker := s.walker.recordCatch n }

def run (s : Journey) (moves : List Move) : Journey :=
  moves.foldl (perform p file) s

/-- The journey after visits, from the walker after them and what is reported of them. -/
def visited (s : Journey) (done : Walker × List Visit) : Journey :=
  { s with walker := done.1, diagnostics := s.diagnostics ++ done.2.filterMap (p.report file) }

variable {p file}

@[simp] theorem run_nil (s : Journey) : s.run p file [] = s := rfl

@[simp] theorem run_cons (s : Journey) (move : Move) (moves : List Move) :
    s.run p file (move :: moves) = (s.perform p file move).run p file moves := rfl

theorem run_append (s : Journey) (first rest : List Move) :
    s.run p file (first ++ rest) = (s.run p file first).run p file rest :=
  List.foldl_append

theorem visited_visited (s : Journey) (first rest : Walker × List Visit) :
    (s.visited p file first).visited p file rest =
      s.visited p file (rest.1, first.2 ++ rest.2) := by
  simp [visited]

theorem visited_of_not_isCall (s : Journey) (path : Path) {n : Node} (h : n.isCall = false)
    (w done : Walker) (below : List Visit) :
    s.visited p file (done, ⟨path, n, w⟩ :: below) = s.visited p file (done, below) := by
  simp [visited, p.report_of_not_isCall file path w h]

/-- A call is reported with the guard that it is in effect. -/
theorem visited_of_isCall (s : Journey) (path : Path) (n : Node) (done : Walker × List Visit) :
    (s.run p file [.register n, .report path n]).visited p file done =
      s.visited p file (done.1, ⟨path, n, s.walker.observe n⟩ :: done.2) := by
  simp only [visited, run_cons, run_nil, perform, List.filterMap_cons, List.append_assoc]
  cases p.report file ⟨path, n, s.walker.observe n⟩ <;> rfl

variable (p file) in
/-- The moves of a node do what visiting it does. -/
def Follows (n : Node) : Prop :=
  ∀ (path : Path) (s : Journey),
    s.run p file (n.moves path) = s.visited p file (Walker.visit path n s.walker)

theorem run_children (path : Path) {children : List (Node × Nat)}
    (h : ∀ c ∈ children, Follows p file c.1) (s : Journey) :
    s.run p file ((children.map .inr).flatMap (Node.movesAt path)) =
      s.visited p file (Walker.visitEach path children s.walker) := by
  induction children generalizing s with
  | nil => simp [Walker.visitEach, visited]
  | cons c rest ih =>
    rw [List.map_cons, List.flatMap_cons, run_append, Node.movesAt, h c List.mem_cons_self,
      ih fun d hd => h d (List.mem_cons_of_mem c hd), visited_visited]
    rfl

/-- What is taken on for a part is put back after it. -/
theorem run_around (path : Path) {children : List (Node × Nat)}
    (h : ∀ c ∈ children, Follows p file c.1) (part : Part) (s : Journey) :
    s.run p file ((part.around children).flatMap (Node.movesAt path)) =
      s.visited p file
        (part.after s.walker (Walker.visitEach path children (part.inside s.walker)).1,
          (Walker.visitEach path children (part.inside s.walker)).2) := by
  rw [Part.around, List.flatMap_cons, List.flatMap_append, run_append, run_append,
    run_children path h]
  rfl

theorem run_conditional (path : Path) {n : Node} (hm : n.kind.manner = .conditional)
    (h : ∀ c ∈ n.children, Follows p file c) (s : Journey) :
    s.run p file (n.stages.flatMap (Node.movesAt path)) =
      s.visited p file ((Walker.visitAlternatives path n s.walker).1,
        (Walker.visitCondition path n s.walker).2 ++ (Walker.visitBody path n s.walker).2 ++
          (Walker.visitAlternatives path n s.walker).2) := by
  have hfirst (role : Role) (c : Node × Nat) (hc : c ∈ n.first role) : Follows p file c.1 :=
    h c.1 (List.mem_of_getElem? (Node.getElem?_of_mem_first hc))
  have hevery (c : Node × Nat) (hc : c ∈ n.every .alternative) : Follows p file c.1 :=
    h c.1 (List.mem_of_getElem? (Node.getElem?_of_mem_every hc))
  let tested := Walker.visitCondition path n s.walker
  let body := Walker.visitBody path n s.walker
  have hcondition : (s.perform p file .openFrame).run p file
        ((Part.test.around (n.first .condition)).flatMap (Node.movesAt path)) =
      s.visited p file ({ tested.1 with inTest := s.walker.inTest }, tested.2) :=
    run_around path (hfirst .condition) .test _
  have hbody : (s.visited p file ({ tested.1 with inTest := s.walker.inTest }, tested.2)).run
        p file (((n.first .body).map .inr).flatMap (Node.movesAt path)) =
      s.visited p file (body.1, tested.2 ++ body.2) := by
    rw [run_children path (hfirst .body), visited_visited]
    rfl
  have halternatives : ((s.visited p file (body.1, tested.2 ++ body.2)).perform p file
        .closeFrame).run p file
          (((n.every .alternative).map .inr).flatMap (Node.movesAt path)) =
      s.visited p file ((Walker.visitAlternatives path n s.walker).1,
        tested.2 ++ body.2 ++ (Walker.visitAlternatives path n s.walker).2) := by
    rw [run_children path hevery]
    exact visited_visited s ({ body.1 with guards := body.1.guards.leave }, _) _
  rw [← halternatives, ← hbody, ← hcondition, Node.stages, hm]
  simp only [List.flatMap_cons, List.flatMap_append, run_append]
  rfl

/-- Doing the moves of a node comes to the same as visiting it. -/
theorem run_moves (n : Node) : Follows p file n := by
  induction n using Node.induction_on_children with
  | step n ih =>
    intro path s
    have hnamed (c : Node × Nat) (hc : c ∈ n.named) : Follows p file c.1 :=
      ih c.1 (List.mem_of_getElem? (Node.getElem?_of_mem_named hc))
    have hbody (c : Node × Nat) (hc : c ∈ n.first .body) : Follows p file c.1 :=
      ih c.1 (List.mem_of_getElem? (Node.getElem?_of_mem_first hc))
    rw [Node.moves_eq]
    by_cases hplain : n.kind.manner = .plain
    · rw [Walker.visit_plain hplain, run_append, Node.stages, hplain, run_children path hnamed]
      by_cases hcall : n.isCall = true
      · rw [hcall]
        exact visited_of_isCall s path n _
      · rw [Bool.not_eq_true] at hcall
        rw [visited_of_not_isCall s path hcall, hcall, Walker.observe_of_not_isCall hcall]
        rfl
    · have hcall : n.isCall = false := Bool.eq_false_iff.mpr (mt Node.manner_of_isCall hplain)
      rw [hcall]
      cases hm : n.kind.manner with
      | conditional =>
        rw [Walker.visit_conditional hm, visited_of_not_isCall s path hcall]
        exact run_conditional path hm ih s
      | arrow =>
        rw [Walker.visit_arrow hm, visited_of_not_isCall s path hcall, Node.stages, hm]
        exact run_around path hbody (.arrow n) s
      | function =>
        rw [Walker.visit_function hm, visited_of_not_isCall s path hcall, Node.stages, hm]
        exact run_around path hbody (.function n) s
      | assignment =>
        rw [Walker.visit_assignment hm, visited_of_not_isCall s path hcall, Node.stages, hm]
        simp only [Bool.false_eq_true, if_false, List.nil_append, List.flatMap_append, run_append,
          run_children path hnamed]
        rfl
      | handler =>
        rw [Walker.visit_handler hm, visited_of_not_isCall s path hcall, Node.stages, hm]
        exact run_children path hnamed (s.perform p file (.handle n))
      | classLike =>
        rw [Walker.visit_classLike hm, visited_of_not_isCall s path hcall, Node.stages, hm]
        exact run_around path hnamed (.classLike n) s
      | plain => exact absurd hm hplain

end Journey

end Availability
