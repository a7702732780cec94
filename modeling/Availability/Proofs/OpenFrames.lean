import Availability.Proofs.WalkMoves

/-!
# A walk restores what it changes

After a node a walk has what it had before it; only the innermost frame may have got guards, and
only inside of a condition. If a frame is open whenever the walk is inside of a condition, then this
stays so at every move: no guard is lost and no frame is closed that is not open. A file leaves no
frame open.
-/
namespace Availability

open Php

namespace Guards

/-- New guards are appended to the innermost frame. -/
theorem frames_foldl_register (g : Guards) (added : List Guard) :
    (added.foldl register g).frames = g.frames.modifyHead (· ++ added) := by
  induction added generalizing g with
  | nil => cases h : g.frames <;> simp [h]
  | cons guard added ih =>
    rw [List.foldl_cons, ih, register]
    cases h : g.frames with
    | nil => simp [h]
    | cons frame outer => simp

theorem depth_leave (g : Guards) : g.leave.depth = g.depth - 1 :=
  List.length_tail

theorem depth_pos_iff {g : Guards} : 0 < g.depth ↔ ∃ frame outer, g.frames = frame :: outer := by
  rw [depth, List.length_pos_iff, List.ne_nil_iff_exists_cons]

end Guards

namespace Walker

/-- Inside of a condition at least one frame is open. -/
def Framed (w : Walker) : Prop :=
  w.inTest = true → 0 < w.guards.depth

/-- What a walker has in common with the one before a node. -/
structure Restored (w w' : Walker) : Prop where
  inTest : w'.inTest = w.inTest
  around : w'.around = w.around
  id : w'.scope.id = w.scope.id
  class? : w'.scope.class? = w.scope.class?
  parent? : w'.scope.parent? = w.scope.parent?
  depth : w'.guards.depth = w.guards.depth
  outerFrames : w'.guards.frames.tail = w.guards.frames.tail
  innermost : ∃ added, w'.guards.frames = w.guards.frames.modifyHead (· ++ added) ∧
    (w.inTest = false → added = [])
  nextScope : w.nextScope ≤ w'.nextScope

variable {w w' : Walker}

theorem Kept.frames (h : Kept w w') :
    ∃ added, w'.guards.frames = w.guards.frames.modifyHead (· ++ added) ∧
      (w.inTest = false → added = []) := by
  obtain ⟨added, hguards, hnone⟩ := h.guards
  exact ⟨added, by rw [hguards, Guards.frames_foldl_register], hnone⟩

theorem Kept.depth (h : Kept w w') : w'.guards.depth = w.guards.depth := by
  obtain ⟨added, hframes, -⟩ := h.frames
  rw [Guards.depth, hframes, List.length_modifyHead]
  rfl

theorem Kept.framed (h : Kept w w') (hw : w.Framed) : w'.Framed := by
  intro htest
  rw [h.depth]
  exact hw (h.inTest ▸ htest)

theorem visit_restored (path : Path) (n : Node) (w : Walker) :
    Restored w (visit path n w).1 := by
  have hkept := visit_kept path n w
  have hscope := (visit_alongside path n w).scope
  refine ⟨hkept.inTest, hkept.around, hscope.id, hscope.class?, hscope.parent?, hkept.depth, ?_,
    hkept.frames, hkept.nextScope⟩
  obtain ⟨added, hguards, -⟩ := hkept.guards
  rw [hguards, Guards.tail_foldl_register]

end Walker

namespace Part

variable {before w : Walker} (part : Part)

theorem guards_inside : (part.inside w).guards = w.guards := by
  cases part <;> rfl

theorem guards_after : (part.after before w).guards = w.guards := by
  cases part <;> rfl

theorem inTest_after (h : (part.inside before).Kept w) :
    (part.after before w).inTest = before.inTest := by
  cases part with
  | test => rfl
  | arrow n => exact h.inTest
  | function n => rfl
  | classLike n => exact h.inTest

theorem depth_after (h : (part.inside before).Kept w) :
    (part.after before w).guards.depth = before.guards.depth := by
  rw [guards_after, h.depth, guards_inside]

end Part

/-- Whether a move finds what it needs: a frame to close, a walker to go back to, or a frame for the
guard that a call is. -/
def Move.Ready (s : Journey) : Move → Prop
  | .closeFrame => 0 < s.walker.guards.depth
  | .leave _ => s.outer ≠ []
  | .register call => s.walker.inTest = true → ∀ guard,
    Guard.ofCall? s.walker.scope call = some guard → ∃ frame outer,
      s.walker.guards.frames = frame :: outer ∧
        (s.walker.observe call).guards.frames = (frame ++ [guard]) :: outer
  | _ => True

namespace Journey

variable (p : Policy) (file : String)

/-- Each of the moves is ready when it comes, and inside of a condition a frame is always open. -/
def Safe (s : Journey) : List Move → Prop
  | [] => s.walker.Framed
  | move :: moves => s.walker.Framed ∧ move.Ready s ∧ (s.perform p file move).Safe moves

/-- The moves of a node are safe from every state in which a frame is open inside of conditions. -/
def SafeThrough (n : Node) : Prop :=
  ∀ (path : Path) (s : Journey), s.walker.Framed → s.Safe p file (n.moves path)

variable {p file} {s : Journey}

theorem Safe.framed {moves : List Move} (h : s.Safe p file moves) : s.walker.Framed := by
  cases moves with
  | nil => exact h
  | cons move moves => exact h.1

theorem safe_append {first rest : List Move} :
    s.Safe p file (first ++ rest) ↔
      s.Safe p file first ∧ (s.run p file first).Safe p file rest := by
  induction first generalizing s with
  | nil => exact ⟨fun h => ⟨h.framed, h⟩, fun h => h.2⟩
  | cons move first ih =>
    rw [List.cons_append, Safe, Safe, ih, run_cons, and_assoc, and_assoc]

/-- A guard is not lost. -/
theorem ready_register (h : s.walker.Framed) (call : Node) : (Move.register call).Ready s := by
  intro htest guard hguard
  obtain ⟨frame, outer, hframes⟩ := Guards.depth_pos_iff.mp (h htest)
  refine ⟨frame, outer, hframes, ?_⟩
  rw [Walker.observe, if_pos htest, hguard]
  simp [Guards.register, hframes]

theorem Safe.run_framed {moves : List Move} (h : s.Safe p file moves) :
    (s.run p file moves).walker.Framed := by
  rw [← List.append_nil moves, safe_append] at h
  exact h.2

theorem Safe.of_split {moves before after : List Move} {move : Move} (h : s.Safe p file moves)
    (hsplit : moves = before ++ move :: after) :
    (s.run p file before).walker.Framed ∧ move.Ready (s.run p file before) := by
  rw [hsplit, safe_append] at h
  exact ⟨h.2.1, h.2.2.1⟩

theorem children_kept (path : Path) (children : List (Node × Nat)) :
    s.walker.Kept (s.run p file ((children.map .inr).flatMap (Node.movesAt path))).walker := by
  rw [run_children path fun c _ => run_moves c.1]
  exact Walker.visitEach_kept fun c _ path w => Walker.visit_kept path c.1 w

theorem safe_children (path : Path) {children : List (Node × Nat)}
    (h : ∀ c ∈ children, SafeThrough p file c.1) (hs : s.walker.Framed) :
    s.Safe p file ((children.map .inr).flatMap (Node.movesAt path)) := by
  induction children generalizing s with
  | nil => exact hs
  | cons c rest ih =>
    have hfirst := h c List.mem_cons_self (path ++ [c.2]) s hs
    rw [List.map_cons, List.flatMap_cons, safe_append]
    exact ⟨hfirst, ih (fun d hd => h d (List.mem_cons_of_mem c hd)) hfirst.run_framed⟩

/-- A part leaves the mark of being inside of a condition and the number of frames. -/
theorem around_level (path : Path) (part : Part) (children : List (Node × Nat)) :
    (s.run p file ((part.around children).flatMap (Node.movesAt path))).walker.inTest =
      s.walker.inTest ∧
    (s.run p file ((part.around children).flatMap (Node.movesAt path))).walker.guards.depth =
      s.walker.guards.depth := by
  rw [run_around path fun c _ => run_moves c.1]
  have hkept : (part.inside s.walker).Kept
      (Walker.visitEach path children (part.inside s.walker)).1 :=
    Walker.visitEach_kept fun c _ path w => Walker.visit_kept path c.1 w
  exact ⟨part.inTest_after hkept, part.depth_after hkept⟩

theorem safe_around (path : Path) {children : List (Node × Nat)}
    (h : ∀ c ∈ children, SafeThrough p file c.1) (part : Part) (hs : s.walker.Framed)
    (hinside : (part.inside s.walker).Framed) :
    s.Safe p file ((part.around children).flatMap (Node.movesAt path)) := by
  have hlevel := @around_level p file s path part children
  have hafter : (s.run p file ((part.around children).flatMap (Node.movesAt path))).walker.Framed :=
    fun htest => hlevel.2 ▸ hs (hlevel.1 ▸ htest)
  rw [Part.around, List.flatMap_cons, List.flatMap_append] at hafter ⊢
  rw [run_append, run_append] at hafter
  rw [safe_append, safe_append]
  have hbelow : (s.perform p file (.enter part)).Safe p file
      ((children.map .inr).flatMap (Node.movesAt path)) := safe_children path h hinside
  refine ⟨⟨hs, trivial, hinside⟩, hbelow, hbelow.run_framed, ?_, hafter⟩
  -- the children leave the walkers before parts as they are
  rw [run_children path fun c _ => run_moves c.1]
  exact List.cons_ne_nil _ _

/-- The frame of a conditional is open in its condition and its body. After that the frames are
open that were open before. -/
theorem safe_conditional (path : Path) {n : Node} (hm : n.kind.manner = .conditional)
    (h : ∀ c ∈ n.children, SafeThrough p file c) (hs : s.walker.Framed) :
    s.Safe p file (n.stages.flatMap (Node.movesAt path)) := by
  have hfirst (role : Role) (c : Node × Nat) (hc : c ∈ n.first role) : SafeThrough p file c.1 :=
    h c.1 (List.mem_of_getElem? (Node.getElem?_of_mem_first hc))
  have hevery (c : Node × Nat) (hc : c ∈ n.every .alternative) : SafeThrough p file c.1 :=
    h c.1 (List.mem_of_getElem? (Node.getElem?_of_mem_every hc))
  let opened := s.perform p file .openFrame
  have hopen : 0 < opened.walker.guards.depth := Nat.succ_pos _
  have hcondition : opened.Safe p file
      ((Part.test.around (n.first .condition)).flatMap (Node.movesAt path)) :=
    safe_around path (hfirst .condition) .test (fun _ => hopen) (fun _ => hopen)
  obtain ⟨htest, hdepth⟩ := @around_level p file opened path .test (n.first .condition)
  let tested := opened.run p file
    ((Part.test.around (n.first .condition)).flatMap (Node.movesAt path))
  have hbody : tested.Safe p file (((n.first .body).map .inr).flatMap (Node.movesAt path)) :=
    safe_children path (hfirst .body) hcondition.run_framed
  let done := tested.run p file (((n.first .body).map .inr).flatMap (Node.movesAt path))
  have hkept : tested.walker.Kept done.walker := children_kept path (n.first .body)
  have hdone : done.walker.guards.depth = s.walker.guards.depth + 1 := hkept.depth.trans hdepth
  have hready : Move.closeFrame.Ready done := Nat.lt_of_lt_of_eq (Nat.succ_pos _) hdone.symm
  have hclosed : (done.perform p file .closeFrame).walker.Framed := by
    intro hin
    have hpos := hs ((hkept.inTest.trans htest).symm.trans hin)
    change 0 < done.walker.guards.leave.depth
    rw [Guards.depth_leave]
    omega
  have hlast : (done.perform p file .closeFrame).Safe p file
      (((n.every .alternative).map .inr).flatMap (Node.movesAt path)) :=
    safe_children path hevery hclosed
  rw [Node.stages, hm]
  simp only [List.flatMap_cons, List.flatMap_append, safe_append]
  exact ⟨⟨hs, trivial, fun _ => hopen⟩, hcondition, hbody, ⟨hbody.run_framed, hready, hclosed⟩,
    hlast⟩

theorem safe_stages (path : Path) (n : Node) (h : ∀ c ∈ n.children, SafeThrough p file c)
    (hs : s.walker.Framed) : s.Safe p file (n.stages.flatMap (Node.movesAt path)) := by
  have hnamed (c : Node × Nat) (hc : c ∈ n.named) : SafeThrough p file c.1 :=
    h c.1 (List.mem_of_getElem? (Node.getElem?_of_mem_named hc))
  have hbody (c : Node × Nat) (hc : c ∈ n.first .body) : SafeThrough p file c.1 :=
    h c.1 (List.mem_of_getElem? (Node.getElem?_of_mem_first hc))
  cases hm : n.kind.manner with
  | conditional => exact safe_conditional path hm h hs
  | arrow =>
    rw [Node.stages, hm]
    exact safe_around path hbody (.arrow n) hs hs
  | function =>
    rw [Node.stages, hm]
    exact safe_around path hbody (.function n) hs fun hin => absurd hin Bool.false_ne_true
  | assignment =>
    rw [Node.stages, hm, List.flatMap_append, safe_append]
    have hbelow := safe_children path hnamed hs
    have hend := hbelow.run_framed
    exact ⟨hbelow, hend, trivial, Walker.recordAssignment_kept.framed hend⟩
  | handler =>
    rw [Node.stages, hm, List.flatMap_cons, safe_append]
    have hbound : (s.walker.recordCatch n).Framed := Walker.recordCatch_kept.framed hs
    exact ⟨⟨hs, trivial, hbound⟩, safe_children path hnamed hbound⟩
  | classLike =>
    rw [Node.stages, hm]
    exact safe_around path hnamed (.classLike n) hs hs
  | plain =>
    rw [Node.stages, hm]
    exact safe_children path hnamed hs

/-- Every move of a walk is ready when it comes. -/
theorem safe_moves (n : Node) : SafeThrough p file n := by
  induction n using Node.induction_on_children with
  | step n ih =>
    intro path s hs
    have hcall : s.Safe p file (if n.isCall then [.register n, .report path n] else []) := by
      split
      · have hregistered : (s.walker.observe n).Framed := Walker.observe_kept.framed hs
        exact ⟨hs, ready_register hs n, hregistered, trivial, hregistered⟩
      · exact hs
    rw [Node.moves_eq, safe_append]
    exact ⟨hcall, safe_stages path n ih hcall.run_framed⟩

/-- Walking through a node restores the walk: it is what visiting the node makes of it, which has
all that it had before, apart from bindings, new scopes and, inside of a condition, new guards in
the innermost frame; and it has reported what there is to report. A frame is open inside of
conditions at every move, so every guard gets into a frame and every frame that is closed is open.
After a file no frame is open. -/
theorem run_restores (p : Policy) (file : String) :
    (∀ (path : Path) (n : Node) (s : Journey), s.walker.Framed →
      s.run p file (n.moves path) = {
        walker := (Walker.visit path n s.walker).1
        outer := s.outer
        diagnostics := s.diagnostics ++
          (Walker.visit path n s.walker).2.filterMap (p.report file) } ∧
      Walker.Restored s.walker (Walker.visit path n s.walker).1 ∧
      ∀ before move after, n.moves path = before ++ move :: after →
        (s.run p file before).walker.Framed ∧ move.Ready (s.run p file before)) ∧
    ∀ tree : Node,
      (({} : Journey).run p file (tree.moves [])).walker.guards.frames = [] ∧
      (({} : Journey).run p file (tree.moves [])).diagnostics = p.diagnose file tree := by
  refine ⟨fun path n s hs => ?_, fun tree => ?_⟩
  · exact ⟨run_moves n path s, Walker.visit_restored path n s.walker,
      fun before move after hsplit => (safe_moves n path s hs).of_split hsplit⟩
  · rw [run_moves]
    have hdepth := (Walker.visit_restored [] tree {}).depth
    exact ⟨List.length_eq_zero_iff.mp hdepth, (p.diagnose_eq file tree).symm⟩

/-- A test for a function, with a closure that has a conditional and a test of its own. -/
def testWithClosure : Node :=
  let test (name : String) (more : List Node) : Node :=
    .mk .functionCall .none 1 none [
      .mk .name .callee 1 (some "function_exists") [],
      .mk .arguments .arguments 1 none
        (.mk .argument .none 1 none [.mk .singleQuoted .none 1 (some name) []] :: more)]
  test "'wp_outer'" [.mk .argument .none 1 none [.mk .closure .none 1 none [
    .mk .other .body 1 none [.mk .ifStatement .none 1 none [
      .mk .parenthesized .condition 1 none [test "'wp_inner'" []]]]]]]

/-- Inside of a condition the outer test comes into effect, and the inner one is gone with its
conditional. -/
theorem run_restores_testWithClosure :
    let s : Journey := { walker := { guards := ⟨[[.function "f"], []]⟩, inTest := true } }
    let p : Policy := { table := {}, minimum := ⟨6, 0, 0⟩, classes := {} }
    s.walker.Framed ∧
    (s.run p "a.php" (testWithClosure.moves [])).walker.guards.frames =
      [[.function "f", .function "wp_outer"], []] ∧
    ∃ w, Walker.Restored s.walker w ∧ (s.run p "a.php" (testWithClosure.moves [])).walker = w := by
  intro s p
  have hs : s.walker.Framed := fun _ => by decide
  obtain ⟨hrun, hrestored, -⟩ := (run_restores p "a.php").1 [] testWithClosure s hs
  refine ⟨hs, ?_, _, hrestored, by rw [hrun]⟩
  rw [hrun]
  decide +kernel

end Journey

end Availability
