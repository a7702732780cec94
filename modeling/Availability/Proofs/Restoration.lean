import Availability.Proofs.Traversal

/-!
# What a walk leaves as it was

After a node and all that is below it the walk has the class around it that it had before, is inside
of a condition if it was, and has opened as many guard frames as it has closed. Only inside of a
condition are there new guards, so what stands outside of conditions leaves no trace in the guards.
-/
namespace Availability

open Php

theorem Guards.tail_foldl_register (g : Guards) (added : List Guard) :
    (added.foldl Guards.register g).frames.tail = g.frames.tail := by
  induction added generalizing g with
  | nil => rfl
  | cons guard added ih =>
    rw [List.foldl_cons, ih, Guards.register]
    cases h : g.frames with
    | nil => simp [h]
    | cons frame outer => rfl

/-- The guards of a frame go when the frame is closed. -/
theorem Guards.leave_foldl_register_enter (g : Guards) (added : List Guard) :
    (added.foldl Guards.register g.enter).leave = g := by
  unfold Guards.leave
  rw [Guards.tail_foldl_register]
  rfl

/-- `s'` is the scope of the same function in the same class, maybe with other bindings. -/
structure Scope.Rebound (s s' : Scope) : Prop where
  id : s'.id = s.id
  class? : s'.class? = s.class?
  parent? : s'.parent? = s.parent?

namespace Scope.Rebound

variable {r s t : Scope}

theorem refl (s : Scope) : s.Rebound s :=
  ⟨rfl, rfl, rfl⟩

theorem symm (h : s.Rebound t) : t.Rebound s :=
  ⟨h.id.symm, h.class?.symm, h.parent?.symm⟩

theorem trans (hrs : r.Rebound s) (hst : s.Rebound t) : r.Rebound t :=
  ⟨hst.id.trans hrs.id, hst.class?.trans hrs.class?, hst.parent?.trans hrs.parent?⟩

theorem assign (s : Scope) (name : String) (classes : List String) :
    s.Rebound (s.assign name classes) :=
  ⟨rfl, rfl, rfl⟩

theorem foldl {α : Type} {bind : Scope → α → Scope} (hbind : ∀ s x, Rebound s (bind s x))
    (xs : List α) (s : Scope) : s.Rebound (xs.foldl bind s) := by
  induction xs generalizing s with
  | nil => exact refl s
  | cons x xs ih => exact (hbind s x).trans (ih _)

end Scope.Rebound

namespace Walker

theorem bindParameter_rebound (s : Scope) (n : Node) : s.Rebound (bindParameter s n) := by
  unfold bindParameter
  split
  · split
    · exact .refl s
    · split <;> exact .assign s _ _
  · exact .refl s

theorem bindParameters_rebound (n : Node) (s : Scope) : s.Rebound (bindParameters n s) := by
  unfold bindParameters
  split
  · exact .refl s
  · exact .foldl bindParameter_rebound _ s

theorem bindCaptures_rebound (n : Node) (outer s : Scope) :
    s.Rebound (bindCaptures n outer s) := by
  unfold bindCaptures
  split
  · exact .refl s
  · exact .foldl (fun s name => .assign s name _) _ s

/-- The scope of a function before anything is bound in it. -/
def ownScope (w : Walker) (n : Node) : Scope :=
  match n.kind with
  | .method => { id := w.nextScope, class? := w.around.name, parent? := w.around.parent }
  | .function => { id := w.nextScope }
  | _ => { id := w.nextScope, class? := w.scope.class?, parent? := w.scope.parent? }

theorem functionScope_rebound (w : Walker) (n : Node) :
    (w.ownScope n).Rebound (w.functionScope n) :=
  (bindCaptures_rebound n w.scope _).trans (bindParameters_rebound n _)

theorem functionScope_id {w : Walker} {n : Node} : (w.functionScope n).id = w.nextScope := by
  rw [(functionScope_rebound w n).id]
  unfold ownScope
  split <;> rfl

/-- What a walk that was at `w` has kept when it is at `w'` and at the same place again. -/
structure Kept (w w' : Walker) : Prop where
  around : w'.around = w.around
  inTest : w'.inTest = w.inTest
  nextScope : w.nextScope ≤ w'.nextScope
  guards : ∃ added, w'.guards = added.foldl Guards.register w.guards ∧
    (w.inTest = false → added = [])

variable {path : Path} {n : Node} {u v w : Walker}

theorem Kept.refl (w : Walker) : Kept w w :=
  ⟨rfl, rfl, le_rfl, [], rfl, fun _ => rfl⟩

theorem Kept.trans (huv : Kept u v) (hvw : Kept v w) : Kept u w := by
  obtain ⟨a, ha, hanone⟩ := huv.guards
  obtain ⟨b, hb, hbnone⟩ := hvw.guards
  refine ⟨hvw.around.trans huv.around, hvw.inTest.trans huv.inTest,
    Nat.le_trans huv.nextScope hvw.nextScope, a ++ b, by rw [hb, ha, List.foldl_append],
    fun h => ?_⟩
  rw [hanone h, hbnone (huv.inTest.trans h)]
  rfl

theorem Kept.guards_eq (h : Kept v w) (hv : v.inTest = false) : w.guards = v.guards := by
  obtain ⟨added, hadded, hnone⟩ := h.guards
  rw [hadded, hnone hv]
  rfl

theorem recordAssignment_kept : Kept w (w.recordAssignment n) := by
  rcases recordAssignment_eq w n with h | ⟨name, classes, h⟩ <;> rw [h]
  · exact .refl w
  · exact ⟨rfl, rfl, le_rfl, [], rfl, fun _ => rfl⟩

theorem recordCatch_kept : Kept w (w.recordCatch n) := by
  rcases recordCatch_eq w n with h | ⟨name, classes, h⟩ <;> rw [h]
  · exact .refl w
  · exact ⟨rfl, rfl, le_rfl, [], rfl, fun _ => rfl⟩

theorem observe_kept : Kept w (w.observe n) := by
  unfold observe
  split
  · rename_i htest
    split
    · exact .refl w
    · rename_i guard _
      exact ⟨rfl, rfl, le_rfl, [guard], rfl, fun h => absurd htest (by simp [h])⟩
  · exact .refl w

theorem visitEach_kept {children : List (Node × Nat)}
    (h : ∀ c ∈ children, ∀ path w, Kept w (visit path c.1 w).1) :
    Kept w (visitEach path children w).1 := by
  induction children generalizing w with
  | nil => exact .refl w
  | cons c rest ih =>
    exact (h c List.mem_cons_self _ _).trans (ih fun d hd => h d (List.mem_cons_of_mem c hd))

/-- A node and what is below it leave the walk with what it had. -/
theorem visit_kept (path : Path) (n : Node) (w : Walker) : Kept w (visit path n w).1 := by
  induction n using Node.induction_on_children generalizing path w with
  | step n ih =>
    have hnamed (w : Walker) : Kept w (visitEach path n.named w).1 :=
      visitEach_kept fun c hc => ih c.1 (List.mem_of_getElem? (Node.getElem?_of_mem_named hc))
    have hfirst (role : Role) (w : Walker) : Kept w (visitEach path (n.first role) w).1 :=
      visitEach_kept fun c hc => ih c.1 (List.mem_of_getElem? (Node.getElem?_of_mem_first hc))
    have hevery (role : Role) (w : Walker) : Kept w (visitEach path (n.every role) w).1 :=
      visitEach_kept fun c hc => ih c.1 (List.mem_of_getElem? (Node.getElem?_of_mem_every hc))
    cases hm : n.kind.manner with
    | conditional =>
      rw [visit_conditional hm]
      have hcondition := hfirst .condition { w with guards := w.guards.enter, inTest := true }
      have hbody := hfirst .body { (visitCondition path n w).1 with inTest := w.inTest }
      obtain ⟨tested, htested, -⟩ := hcondition.guards
      obtain ⟨inBody, hinBody, -⟩ := hbody.guards
      have hleave : (visitBody path n w).1.guards.leave = w.guards := by
        unfold visitBody
        rw [hinBody, visitCondition, htested, ← List.foldl_append,
          Guards.leave_foldl_register_enter]
      refine Kept.trans ?_ (hevery .alternative _)
      exact ⟨hbody.around.trans hcondition.around, hbody.inTest,
        Nat.le_trans hcondition.nextScope hbody.nextScope, [], hleave, fun _ => rfl⟩
    | arrow =>
      rw [visit_arrow hm]
      have h := hfirst .body { w with scope := bindParameters n w.scope }
      exact ⟨h.around, h.inTest, h.nextScope, h.guards⟩
    | function =>
      rw [visit_function hm]
      have h := hfirst .body
        { w with scope := w.functionScope n, nextScope := w.nextScope + 1, inTest := false }
      exact ⟨h.around, rfl, Nat.le_of_succ_le h.nextScope, [], h.guards_eq rfl, fun _ => rfl⟩
    | assignment =>
      rw [visit_assignment hm]
      exact (hnamed w).trans recordAssignment_kept
    | handler =>
      rw [visit_handler hm]
      exact recordCatch_kept.trans (hnamed _)
    | classLike =>
      rw [visit_classLike hm]
      have h := hnamed { w with around := classContext n }
      exact ⟨rfl, h.inTest, h.nextScope, h.guards⟩
    | plain =>
      rw [visit_plain hm]
      exact observe_kept.trans (hnamed _)

end Walker

end Availability
