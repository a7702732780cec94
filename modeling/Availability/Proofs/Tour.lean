import Availability.Proofs.GuardScope
import Availability.Proofs.Restoration

/-!
# The tour through the children of a node

Whatever the manner of passing through a node, the walk changes on entering, visits children one
after another, and changes once more on leaving. Between two children only guards and the mark of
being inside of a condition change. What a walk does to scopes and classes is derived from this: it
has the same scope and class around it after a node as before, apart from bindings.
-/
namespace Availability

open Php

namespace Walker

/-- The walker before the first child of a node. -/
def entered (w : Walker) (n : Node) : Walker :=
  match n.kind.manner with
  | .arrow => { w with scope := bindParameters n w.scope }
  | .function =>
    { w with scope := w.functionScope n, nextScope := w.nextScope + 1, inTest := false }
  | .handler => w.recordCatch n
  | .classLike => { w with around := classContext n }
  | .conditional | .assignment | .plain => w.observe n

/-- The walker after the last child of a node. -/
def toured (w : Walker) (path : Path) (n : Node) : Walker :=
  match n.kind.manner with
  | .conditional => (visitAlternatives path n w).1
  | .arrow | .function => (visitEach path (n.first .body) (w.entered n)).1
  | .assignment | .handler | .classLike | .plain => (visitEach path n.named (w.entered n)).1

/-- The walker after a node, from the one before it and the one after its last child. -/
def left (w : Walker) (n : Node) (done : Walker) : Walker :=
  match n.kind.manner with
  | .arrow => { done with scope := w.scope }
  | .function => { done with scope := w.scope, inTest := w.inTest }
  | .classLike => { done with around := w.around }
  | .assignment => done.recordAssignment n
  | .conditional | .handler | .plain => done

/-- Children of the node at a path are visited, at the given positions and in that order. -/
inductive Tour (path : Path) (n : Node) : List Nat → Walker → Walker → List Visit → Prop
  | stop (w : Walker) : Tour path n [] w w []
  /-- Between two children the walk may come into a condition or out of it. -/
  | turn {places : List Nat} {w done : Walker} {visits : List Visit} (guards : Guards)
      (inTest : Bool) :
      Tour path n places { w with guards := guards, inTest := inTest } done visits →
      Tour path n places w done visits
  | child {places : List Nat} {w done : Walker} {visits : List Visit} {c : Node} {i : Nat} :
      n.children[i]? = some c → Tour path n places (visit (path ++ [i]) c w).1 done visits →
      Tour path n (i :: places) w done ((visit (path ++ [i]) c w).2 ++ visits)

variable {path : Path} {n : Node} {places : List Nat} {w w' done : Walker} {visits : List Visit}

theorem Tour.visitEach {children : List (Node × Nat)}
    (hchildren : ∀ c ∈ children, n.children[c.2]? = some c.1)
    (h : Tour path n places (visitEach path children w).1 done visits) :
    Tour path n (children.map Prod.snd ++ places) w done
      ((Walker.visitEach path children w).2 ++ visits) := by
  induction children generalizing w with
  | nil => exact h
  | cons c rest ih =>
    rw [Walker.visitEach, List.append_assoc]
    exact .child (hchildren c List.mem_cons_self)
      (ih (fun d hd => hchildren d (List.mem_cons_of_mem c hd)) h)

theorem tour_visitEach {children : List (Node × Nat)}
    (hchildren : ∀ c ∈ children, n.children[c.2]? = some c.1) :
    Tour path n (children.map Prod.snd) w (visitEach path children w).1
      (visitEach path children w).2 := by
  simpa using Tour.visitEach hchildren (.stop _)

/-- The parts of a conditional are visited one after another. -/
theorem tour_conditional :
    Tour path n ((n.first .condition).map Prod.snd ++
        ((n.first .body).map Prod.snd ++ (n.every .alternative).map Prod.snd)) w
      (visitAlternatives path n w).1
      ((visitCondition path n w).2 ++ ((visitBody path n w).2 ++ (visitAlternatives path n w).2)) :=
  .turn w.guards.enter true <| .visitEach (fun _ => Node.getElem?_of_mem_first) <|
    .turn (visitCondition path n w).1.guards w.inTest <|
      .visitEach (fun _ => Node.getElem?_of_mem_first) <|
        .turn (visitBody path n w).1.guards.leave (visitBody path n w).1.inTest <|
          tour_visitEach fun _ => Node.getElem?_of_mem_every

/-- The parts of a conditional have different roles, so they stand at different places. -/
theorem nodup_conditional (n : Node) :
    ((n.first .condition).map Prod.snd ++
      ((n.first .body).map Prod.snd ++ (n.every .alternative).map Prod.snd)).Nodup := by
  simp only [List.nodup_append, List.mem_append, List.mem_map]
  refine ⟨n.nodup_first _, ⟨n.nodup_first _, n.nodup_every _, ?_⟩, ?_⟩
  · rintro _ ⟨c, hc, rfl⟩ _ ⟨d, hd, rfl⟩
    exact Node.position_ne (Node.getElem?_of_mem_first hc) (Node.getElem?_of_mem_every hd)
      (by rw [Node.role_of_mem_first hc, Node.role_of_mem_every hd]; decide)
  · rintro _ ⟨c, hc, rfl⟩ _ (⟨d, hd, rfl⟩ | ⟨d, hd, rfl⟩)
    · exact Node.position_ne (Node.getElem?_of_mem_first hc) (Node.getElem?_of_mem_first hd)
        (by rw [Node.role_of_mem_first hc, Node.role_of_mem_first hd]; decide)
    · exact Node.position_ne (Node.getElem?_of_mem_first hc) (Node.getElem?_of_mem_every hd)
        (by rw [Node.role_of_mem_first hc, Node.role_of_mem_every hd]; decide)

theorem observe_of_manner (h : n.kind.manner ≠ .plain) : w.observe n = w :=
  observe_of_ne fun hkind => h (by rw [hkind]; rfl)

/-- Passing through a node: entering it, the tour through its children, and leaving it. -/
theorem exists_tour (path : Path) (n : Node) (w : Walker) :
    ∃ places inner,
      visit path n w = (w.left n (w.toured path n), ⟨path, n, w.observe n⟩ :: inner) ∧
        places.Nodup ∧ Tour path n places (w.entered n) (w.toured path n) inner := by
  unfold left toured entered
  cases hm : n.kind.manner with
  | conditional =>
    rw [observe_of_manner (by simp [hm]), visit_conditional hm, List.append_assoc]
    exact ⟨_, _, rfl, nodup_conditional n, tour_conditional⟩
  | arrow =>
    rw [observe_of_manner (by simp [hm]), visit_arrow hm]
    exact ⟨_, _, rfl, n.nodup_first _, tour_visitEach fun _ => Node.getElem?_of_mem_first⟩
  | function =>
    rw [observe_of_manner (by simp [hm]), visit_function hm]
    exact ⟨_, _, rfl, n.nodup_first _, tour_visitEach fun _ => Node.getElem?_of_mem_first⟩
  | assignment =>
    rw [observe_of_manner (by simp [hm]), visit_assignment hm]
    exact ⟨_, _, rfl, n.nodup_named, tour_visitEach fun _ => Node.getElem?_of_mem_named⟩
  | handler =>
    rw [observe_of_manner (by simp [hm]), visit_handler hm]
    exact ⟨_, _, rfl, n.nodup_named, tour_visitEach fun _ => Node.getElem?_of_mem_named⟩
  | classLike =>
    rw [observe_of_manner (by simp [hm]), visit_classLike hm]
    exact ⟨_, _, rfl, n.nodup_named, tour_visitEach fun _ => Node.getElem?_of_mem_named⟩
  | plain =>
    rw [visit_plain hm]
    exact ⟨_, _, rfl, n.nodup_named, tour_visitEach fun _ => Node.getElem?_of_mem_named⟩

/-- What two walkers at the same place have in common: the function and the class around. -/
structure Alongside (w w' : Walker) : Prop where
  scope : w.scope.Rebound w'.scope
  around : w'.around = w.around

namespace Alongside

variable {u v w : Walker}

theorem refl (w : Walker) : w.Alongside w :=
  ⟨.refl _, rfl⟩

theorem trans (huv : u.Alongside v) (hvw : v.Alongside w) : u.Alongside w :=
  ⟨huv.scope.trans hvw.scope, hvw.around.trans huv.around⟩

theorem observe (w : Walker) (n : Node) : w.Alongside (w.observe n) := by
  refine ⟨observe_scope ▸ .refl _, ?_⟩
  unfold Walker.observe
  split
  · split <;> rfl
  · rfl

theorem recordAssignment (w : Walker) (n : Node) : w.Alongside (w.recordAssignment n) := by
  rcases w.recordAssignment_eq n with heq | ⟨name, classes, heq⟩
  · rw [heq]
    exact refl w
  · rw [heq]
    exact ⟨.assign _ _ _, rfl⟩

theorem recordCatch (w : Walker) (n : Node) : w.Alongside (w.recordCatch n) := by
  rcases w.recordCatch_eq n with heq | ⟨name, classes, heq⟩
  · rw [heq]
    exact refl w
  · rw [heq]
    exact ⟨.assign _ _ _, rfl⟩

/-- What is changed on entering a node is changed back on leaving it. -/
theorem left {done : Walker} (h : (w.entered n).Alongside done) : w.Alongside (w.left n done) := by
  unfold entered at h
  unfold Walker.left
  cases hm : n.kind.manner with
  | arrow => exact ⟨.refl _, by simpa [hm] using h.around⟩
  | function => exact ⟨.refl _, by simpa [hm] using h.around⟩
  | classLike => exact ⟨by simpa [hm] using h.scope, rfl⟩
  | assignment => exact ((observe w n).trans (by simpa [hm] using h)).trans (recordAssignment _ _)
  | handler => exact (recordCatch w n).trans (by simpa [hm] using h)
  | conditional => exact (observe w n).trans (by simpa [hm] using h)
  | plain => exact (observe w n).trans (by simpa [hm] using h)

end Alongside

theorem entered_of_function (h : n.kind.manner = .function) :
    w.entered n =
      { w with scope := w.functionScope n, nextScope := w.nextScope + 1, inTest := false } := by
  rw [entered, h]

theorem entered_of_class (h : n.kind.manner = .classLike) :
    w.entered n = { w with around := classContext n } := by
  rw [entered, h]

/-- Only functions have scopes of their own, and only classes are a class around. -/
theorem entered_alongside (hfunction : n.kind.manner ≠ .function)
    (hclass : n.kind.manner ≠ .classLike) : w.Alongside (w.entered n) := by
  unfold entered
  split
  · exact ⟨bindParameters_rebound n w.scope, rfl⟩
  · contradiction
  · exact .recordCatch w n
  · contradiction
  all_goals exact .observe w n

theorem Tour.alongside_of (h : Tour path n places w done visits)
    (hvisit : ∀ c ∈ n.children, ∀ (path : Path) (w : Walker), w.Alongside (visit path c w).1) :
    w.Alongside done := by
  induction h with
  | stop w => exact .refl w
  | turn guards inTest _ ih => exact ⟨ih.scope, ih.around⟩
  | child hc _ ih => exact (hvisit _ (List.mem_of_getElem? hc) _ _).trans ih

/-- A walk has the same function and class around it after a node as before. -/
theorem visit_alongside (path : Path) (n : Node) (w : Walker) :
    w.Alongside (visit path n w).1 := by
  induction n using Node.induction_on_children generalizing path w with
  | step n ih =>
    obtain ⟨places, inner, hvisit, -, htour⟩ := exists_tour path n w
    rw [hvisit]
    exact .left (htour.alongside_of ih)

/-- What is visited on a tour is visited below one of the children. -/
theorem Tour.exists_child (h : Tour path n places w done visits) {v : Visit} (hv : v ∈ visits) :
    ∃ c i before, n.children[i]? = some c ∧ w.Alongside before ∧
      v ∈ (visit (path ++ [i]) c before).2 ∧ (visit (path ++ [i]) c before).2 ⊆ visits := by
  induction h with
  | stop => cases hv
  | turn guards inTest _ ih =>
    obtain ⟨c, i, before, hc, hbefore, hv, hsubset⟩ := ih hv
    exact ⟨c, i, before, hc, ⟨hbefore.scope, hbefore.around⟩, hv, hsubset⟩
  | @child places w done visits c i hc _ ih =>
    rcases List.mem_append.mp hv with hv | hv
    · exact ⟨c, i, w, hc, .refl w, hv, List.subset_append_left _ _⟩
    · obtain ⟨d, j, before, hd, hbefore, hv, hsubset⟩ := ih hv
      exact ⟨d, j, before, hd, (visit_alongside _ c w).trans hbefore, hv,
        List.subset_append_of_subset_right _ hsubset⟩

theorem Tour.exists_place (h : Tour path n places w done visits) {v : Visit} (hv : v ∈ visits) :
    ∃ i ∈ places, path ++ [i] <+: v.path := by
  induction h with
  | stop => cases hv
  | turn guards inTest _ ih => exact ih hv
  | @child places w done visits c i hc _ ih =>
    rcases List.mem_append.mp hv with hv | hv
    · exact ⟨i, List.mem_cons_self, prefix_of_mem_visit hv⟩
    · obtain ⟨j, hj, hprefix⟩ := ih hv
      exact ⟨j, List.mem_cons_of_mem i hj, hprefix⟩

/-- A visit is of the node itself or of what is below one of its children, and there the walker has
around it what it has on entering the node. -/
theorem mem_visit_entered {v : Visit} (h : v ∈ (visit path n w).2) :
    v = ⟨path, n, w.observe n⟩ ∨
      ∃ c i before, n.children[i]? = some c ∧ (w.entered n).Alongside before ∧
        v ∈ (visit (path ++ [i]) c before).2 ∧
          (visit (path ++ [i]) c before).2 ⊆ (visit path n w).2 := by
  obtain ⟨places, inner, hvisit, -, htour⟩ := exists_tour path n w
  rw [hvisit] at h ⊢
  rcases List.mem_cons.mp h with hv | hv
  · exact .inl hv
  · obtain ⟨c, i, before, hc, hbefore, hv, hsubset⟩ := htour.exists_child hv
    exact .inr ⟨c, i, before, hc, hbefore, hv, List.subset_cons_of_subset _ hsubset⟩

theorem Tour.nodup_of (h : Tour path n places w done visits) (hplaces : places.Nodup)
    (hvisit : ∀ c ∈ n.children, ∀ (path : Path) (w : Walker),
      ((visit path c w).2.map (·.path)).Nodup) : (visits.map (·.path)).Nodup := by
  induction h with
  | stop => exact List.nodup_nil
  | turn guards inTest _ ih => exact ih hplaces
  | @child places w done visits c i hc htour ih =>
    obtain ⟨hi, hplaces⟩ := List.nodup_cons.mp hplaces
    rw [List.map_append]
    refine List.nodup_append.mpr
      ⟨hvisit c (List.mem_of_getElem? hc) _ _, ih hplaces, fun p hp q hq heq => ?_⟩
    obtain ⟨u, hu, rfl⟩ := List.mem_map.mp hp
    obtain ⟨v, hv, rfl⟩ := List.mem_map.mp hq
    obtain ⟨j, hj, hprefix⟩ := htour.exists_place hv
    have hij : i ≠ j := fun hij => hi (hij ▸ hj)
    exact fresh_visit hij u hu (heq ▸ hprefix)

/-- No place is visited twice. -/
theorem nodup_visit (path : Path) (n : Node) (w : Walker) :
    ((visit path n w).2.map (·.path)).Nodup := by
  induction n using Node.induction_on_children generalizing path w with
  | step n ih =>
    obtain ⟨places, inner, hvisit, hplaces, htour⟩ := exists_tour path n w
    rw [hvisit, List.map_cons, List.nodup_cons]
    refine ⟨fun hmem => ?_, htour.nodup_of hplaces ih⟩
    obtain ⟨v, hv, hpath⟩ := List.mem_map.mp hmem
    obtain ⟨i, -, hprefix⟩ := htour.exists_place hv
    have hle := hprefix.length_le
    simp only [hpath, List.length_append, List.length_singleton] at hle
    omega

end Walker

end Availability
