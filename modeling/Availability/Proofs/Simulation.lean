import Availability.Proofs.Related
import Availability.Proofs.Restoration

/-!
# Walks through corresponding trees

Two walks through corresponding trees visit corresponding nodes in the same order, apart from what
they visit in the hole. The body of a function leaves nothing behind but the number of scopes that
it opens, so the walks go on alike after it, whatever is in it.
-/
namespace Availability

open Php

/-- Visits of corresponding nodes by walkers that know the same. -/
structure Visit.Related (S : Spelling) (v v' : Visit) : Prop where
  path : v'.path = v.path
  node : Near S v.node v'.node
  methods : KeepsMethods v.node v'.node
  walker : ∃ R, v.walker.Related S R v'.walker

/-- The names of methods are kept in all places outside of the hole. -/
def KeepsMethodsOutside (hole : Option Path) (n n' : Node) : Prop :=
  ∀ path m m', ¬Within hole path → n.at? path = some m → n'.at? path = some m' → KeepsMethods m m'

namespace Walker

variable {S : Spelling} {R : Nat → Nat → Prop} {w w' : Walker} {n n' : Node}

theorem functionScope_agree (h : Related S R w w') (hn : Near S n n')
    (hchildren : List.Forall₂ (Near S) n.children n'.children) :
    (w.functionScope n).Agree S (w'.functionScope n') := by
  unfold functionScope
  rw [hn.head.kind]
  refine bindParameters_agree (bindCaptures_agree h.scope ?_ hchildren) hn
  split
  · exact .of_context h.name h.parent
  · exact .of_context rfl rfl
  · exact .of_context h.scope.class? h.scope.parent?

theorem Related.mono_guards {R' : Nat → Nat → Prop} (h : Related S R w w')
    (hR : ∀ a b, R a b → R' a b) :
    List.Forall₂ (List.Forall₂ (Guard.Related S R')) w.guards.frames w'.guards.frames :=
  h.guards.imp fun _ _ hframe => hframe.imp fun _ _ hg => hg.mono hR

/-- Entering a function pairs the ids of the two new scopes. -/
theorem Related.enterFunction (h : Related S R w w') (hn : Near S n n')
    (hchildren : List.Forall₂ (Near S) n.children n'.children) :
    Related S (fun a b => R a b ∨ (a = w.nextScope ∧ b = w'.nextScope))
      { w with scope := w.functionScope n, nextScope := w.nextScope + 1, inTest := false }
      { w' with scope := w'.functionScope n', nextScope := w'.nextScope + 1, inTest := false } where
  guards := h.mono_guards fun _ _ => .inl
  scope := functionScope_agree h hn hchildren
  id := .inr ⟨functionScope_id, functionScope_id⟩
  name := h.name
  parent := h.parent
  inTest := rfl
  known a b hab := by
    rcases hab with hab | ⟨rfl, rfl⟩
    · have := h.known a b hab
      dsimp only
      omega
    · exact ⟨Nat.lt_succ_self _, Nat.lt_succ_self _⟩
  paired a b a' b' hab hab' := by
    rcases hab with hab | ⟨rfl, rfl⟩
    · rcases hab' with hab' | ⟨rfl, rfl⟩
      · exact h.paired a b a' b' hab hab'
      · have := h.known a b hab
        omega
    · rcases hab' with hab' | ⟨rfl, rfl⟩
      · have := h.known a' b' hab'
        omega
      · simp

/-- Two walks end alike, and have visited alike what is not left out. -/
def Simulated (S : Spelling) (R : Nat → Nat → Prop) (out : Path → Bool)
    (x x' : Walker × List Visit) : Prop :=
  ∃ R', (∀ a b, R a b → R' a b) ∧ x.1.Related S R' x'.1 ∧
    List.Forall₂ (Visit.Related S) (x.2.filter (out ·.path)) (x'.2.filter (out ·.path))

namespace Simulated

variable {out : Path → Bool} {x x' y y' : Walker × List Visit} {u u' : Walker}

theorem start (h : Related S R w w') : Simulated S R out (w, []) (w', []) :=
  ⟨R, fun _ _ => id, h, .nil⟩

theorem append (hx : Simulated S R out x x')
    (hy : ∀ R', Related S R' x.1 x'.1 → Simulated S R' out y y') :
    Simulated S R out (y.1, x.2 ++ y.2) (y'.1, x'.2 ++ y'.2) := by
  obtain ⟨R₁, hR₁, hwalkers, hvisits⟩ := hx
  obtain ⟨R₂, hR₂, hwalkers', hvisits'⟩ := hy R₁ hwalkers
  refine ⟨R₂, fun a b hab => hR₂ a b (hR₁ a b hab), hwalkers', ?_⟩
  rw [List.filter_append, List.filter_append]
  exact List.rel_append hvisits hvisits'

theorem replace (hx : Simulated S R out x x')
    (hu : ∀ R', (∀ a b, R a b → R' a b) → Related S R' x.1 x'.1 → Related S R' u u') :
    Simulated S R out (u, x.2) (u', x'.2) := by
  obtain ⟨R₁, hR₁, hwalkers, hvisits⟩ := hx
  exact ⟨R₁, hR₁, hu R₁ hR₁ hwalkers, hvisits⟩

theorem cons {v v' : Visit} {vs vs' : List Visit} (hv : v.Related S v')
    (hx : Simulated S R out (u, vs) (u', vs')) :
    Simulated S R out (u, v :: vs) (u', v' :: vs') := by
  obtain ⟨R₁, hR₁, hwalkers, hvisits⟩ := hx
  refine ⟨R₁, hR₁, hwalkers, ?_⟩
  rw [List.filter_cons, List.filter_cons, hv.path]
  split
  · exact .cons hv hvisits
  · exact hvisits

end Simulated

/-- Whatever walkers know the same, visiting either node at the path keeps it so. -/
def SimulatesAt (S : Spelling) (out : Path → Bool) (path : Path) (c c' : Node) : Prop :=
  ∀ R w w', Related S R w w' → Simulated S R out (visit path c w) (visit path c' w')

/-- Children at a position that are looked up alike, and whose visits simulate each other. -/
def SimulatesChild (S : Spelling) (out : Path → Bool) (path : Path) (i : Nat) (c c' : Node) :
    Prop :=
  c.role = c'.role ∧ c.isNamed = c'.isNamed ∧ SimulatesAt S out (path ++ [i]) c c'

def SimulatesEach (S : Spelling) (out : Path → Bool) (path : Path) (cs cs' : List (Node × Nat)) :
    Prop :=
  List.Forall₂ (fun a b => a.2 = b.2 ∧ SimulatesChild S out path a.2 a.1 b.1) cs cs'

variable {out : Path → Bool} {path : Path} {hole : Option Path}

theorem visitEach_simulated {cs cs' : List (Node × Nat)}
    (h : SimulatesEach S out path cs cs') (hw : Related S R w w') :
    Simulated S R out (visitEach path cs w) (visitEach path cs' w') := by
  induction h generalizing R w w' with
  | nil => exact .start hw
  | @cons a b cs cs' hab h ih =>
    obtain ⟨hposition, -, -, hvisit⟩ := hab
    have hfirst := hvisit R w w' hw
    rw [hposition] at hfirst
    unfold visitEach
    rw [hposition]
    exact hfirst.append fun R' hw' => ih hw'

section Children

variable (h : SimulatesEach S out path n.children.zipIdx n'.children.zipIdx)
include h

theorem named_simulated (hw : Related S R w w') :
    Simulated S R out (visitEach path n.named w) (visitEach path n'.named w') :=
  visitEach_simulated (rel_filter_of_eq h fun _ _ hab => hab.2.2.1) hw

theorem every_simulated (role : Role) (hw : Related S R w w') :
    Simulated S R out (visitEach path (n.every role) w) (visitEach path (n'.every role) w') :=
  visitEach_simulated (rel_filter_of_eq h fun _ _ hab => by rw [hab.2.1]) hw

theorem first_simulated (role : Role) (hw : Related S R w w') :
    Simulated S R out (visitEach path (n.first role) w) (visitEach path (n'.first role) w') := by
  refine visitEach_simulated ?_ hw
  unfold Node.first
  rcases rel_cases (rel_find? (p := (·.1.role == role)) (q := (·.1.role == role)) h
    fun _ _ hab => by rw [hab.2.1]) with ⟨hnone, hnone'⟩ | ⟨a, b, ha, hb, hab⟩
  · rw [hnone, hnone']
    exact .nil
  · rw [ha, hb]
    exact .cons hab .nil

theorem conditional_simulated (hw : Related S R w w') :
    Simulated S R out
      ((visitAlternatives path n w).1, (visitCondition path n w).2 ++ (visitBody path n w).2 ++
        (visitAlternatives path n w).2)
      ((visitAlternatives path n' w').1, (visitCondition path n' w').2 ++
        (visitBody path n' w').2 ++ (visitAlternatives path n' w').2) := by
  have hcondition : Simulated S R out (visitCondition path n w) (visitCondition path n' w') :=
    first_simulated h .condition
      ⟨.cons .nil hw.guards, hw.scope, hw.id, hw.name, hw.parent, rfl, hw.known, hw.paired⟩
  have hbody (R' : Nat → Nat → Prop)
      (hr : Related S R' (visitCondition path n w).1 (visitCondition path n' w').1) :
      Simulated S R' out (visitBody path n w) (visitBody path n' w') :=
    first_simulated h .body
      ⟨hr.guards, hr.scope, hr.id, hr.name, hr.parent, hw.inTest, hr.known, hr.paired⟩
  have halternatives (R' : Nat → Nat → Prop)
      (hr : Related S R' (visitBody path n w).1 (visitBody path n' w').1) :
      Simulated S R' out (visitAlternatives path n w) (visitAlternatives path n' w') := by
    have hleave := List.forall₂_drop 1 hr.guards
    rw [List.drop_one, List.drop_one] at hleave
    exact every_simulated h .alternative
      ⟨hleave, hr.scope, hr.id, hr.name, hr.parent, hr.inTest, hr.known, hr.paired⟩
  exact (hcondition.append hbody).append halternatives

end Children

section Owner

variable {i : Nat} (hout : ∀ below, out (path ++ below) = true ↔ ¬Within (some [i]) below)
include hout

/-- What is visited in the hole is left out. -/
theorem filter_body_eq_nil (hn : n.place? .body = some i) (w : Walker) :
    (visitEach path (n.first .body) w).2.filter (out ·.path) = [] := by
  rw [List.filter_eq_nil_iff]
  intro v hv hkept
  obtain ⟨c, hc, before, hv⟩ := mem_visitEach hv
  have hposition : c.2 = i := by
    have := Node.place?_of_mem_first hc
    simpa [hn] using this.symm
  obtain ⟨below, hbelow⟩ := prefix_of_mem_visit hv
  rw [← hbelow, hposition, List.append_assoc] at hkept
  exact (hout _).mp hkept ⟨[i], rfl, List.prefix_append [i] below⟩

/-- The function whose body is the hole: nothing of what is in the body is left in the walkers. -/
theorem owner_simulated (h : Alike S (some [i]) n n') (hmethods : KeepsMethods n n')
    (hw : Related S R w w') : Simulated S R out (visit path n w) (visit path n' w') := by
  obtain ⟨hown, hown'⟩ := h.hole [i] rfl
  have hmanner : n.kind.manner = .function := Kind.manner_eq_function.mpr hown.of_singleton.1.1
  rw [visit_function hmanner, visit_function (by rw [h.head.kind, hmanner])]
  have hkept (m : Node) (u : Walker) : Kept u (visitEach path (m.first .body) u).1 :=
    visitEach_kept fun c _ path w => visit_kept path c.1 w
  have hdone := hkept n
    { w with scope := w.functionScope n, nextScope := w.nextScope + 1, inTest := false }
  have hdone' := hkept n'
    { w' with scope := w'.functionScope n', nextScope := w'.nextScope + 1, inTest := false }
  dsimp only
  refine .cons ⟨rfl, ⟨_, h⟩, hmethods, R, hw⟩ ⟨R, fun _ _ => id, ?_, ?_⟩
  · constructor
    · rw [hdone.guards_eq rfl, hdone'.guards_eq rfl]
      exact hw.guards
    · exact hw.scope
    · exact hw.id
    · dsimp only
      rw [hdone.around, hdone'.around]
      exact hw.name
    · dsimp only
      rw [hdone.around, hdone'.around]
      exact hw.parent
    · exact hw.inTest
    · intro a b hab
      have hknown := hw.known a b hab
      have hmore := hdone.nextScope
      have hmore' := hdone'.nextScope
      dsimp only at hmore hmore' ⊢
      omega
    · exact hw.paired
  · dsimp only
    rw [filter_body_eq_nil hout hown.of_singleton.2, filter_body_eq_nil hout hown'.of_singleton.2]
    exact .nil

end Owner

/-- Passing through corresponding nodes, if passing through the children is known. -/
theorem visit_simulated_of_children (h : Near S n n') (hmethods : KeepsMethods n n')
    (hnear : List.Forall₂ (Near S) n.children n'.children)
    (hchildren : SimulatesEach S out path n.children.zipIdx n'.children.zipIdx) :
    SimulatesAt S out path n n' := by
  intro R w w' hw
  have itself {u u' : Walker} (hu : Related S R u u') :
      Visit.Related S ⟨path, n, u⟩ ⟨path, n', u'⟩ := ⟨rfl, h, hmethods, R, hu⟩
  cases hm : n.kind.manner with
  | conditional =>
    rw [visit_conditional hm, visit_conditional (by rw [h.head.kind, hm])]
    exact (conditional_simulated hchildren hw).cons (itself hw)
  | arrow =>
    rw [visit_arrow hm, visit_arrow (by rw [h.head.kind, hm])]
    have hbound : Related S R { w with scope := bindParameters n w.scope }
        { w' with scope := bindParameters n' w'.scope } :=
      ⟨hw.guards, bindParameters_agree hw.scope h,
        by simpa only [(bindParameters_rebound _ _).id] using hw.id, hw.name, hw.parent, hw.inTest,
        hw.known, hw.paired⟩
    refine .cons (itself hw) ((first_simulated hchildren .body hbound).replace fun R' hR hr => ?_)
    exact ⟨hr.guards, hw.scope, hR _ _ hw.id, hr.name, hr.parent, hr.inTest, hr.known, hr.paired⟩
  | function =>
    rw [visit_function hm, visit_function (by rw [h.head.kind, hm])]
    obtain ⟨R', hR, hr, hvisits⟩ :=
      first_simulated hchildren .body (hw.enterFunction h hnear)
    dsimp only
    refine .cons (itself hw) ⟨R', fun a b hab => hR a b (.inl hab), ?_, hvisits⟩
    exact ⟨hr.guards, hw.scope, hR _ _ (.inl hw.id), hr.name, hr.parent, hw.inTest, hr.known,
      hr.paired⟩
  | assignment =>
    rw [visit_assignment hm, visit_assignment (by rw [h.head.kind, hm])]
    refine .cons (itself hw) ((named_simulated hchildren hw).replace fun R' _ hr => ?_)
    exact hr.recordAssignment h
  | handler =>
    rw [visit_handler hm, visit_handler (by rw [h.head.kind, hm])]
    exact .cons (itself hw) (named_simulated hchildren (hw.recordCatch h))
  | classLike =>
    rw [visit_classLike hm, visit_classLike (by rw [h.head.kind, hm])]
    have hkind : n.kind.isFunction = false := by
      rw [← Bool.not_eq_true, ← Kind.manner_eq_function, hm]
      decide
    have hname := rel_bind_map (k := S.norm) (h.child? .name)
      fun _ _ hc => hc.2.head.literalName?
    have hinside : Related S R { w with around := classContext n }
        { w' with around := classContext n' } :=
      ⟨hw.guards, hw.scope, hw.id, hname, h.baseClass? (Near.not_isOwner_of_kind hkind), hw.inTest,
        hw.known, hw.paired⟩
    refine .cons (itself hw) ((named_simulated hchildren hinside).replace fun R' _ hr => ?_)
    exact ⟨hr.guards, hr.scope, hr.id, hw.name, hw.parent, hr.inTest, hr.known, hr.paired⟩
  | plain =>
    rw [visit_plain hm, visit_plain (by rw [h.head.kind, hm])]
    have hobserved := hw.observe h hmethods
    exact .cons (itself hobserved) (named_simulated hchildren hobserved)

/-- Passing through corresponding nodes, with the hole anywhere below. -/
theorem visit_simulated (h : Alike S hole n n') (hkeeps : KeepsMethodsOutside hole n n')
    (hout : ∀ below, out (path ++ below) = true ↔ ¬Within hole below) :
    SimulatesAt S out path n n' := by
  induction n using Node.induction_on_children generalizing n' path hole with
  | step n ih =>
    have hmethods : KeepsMethods n n' := hkeeps [] n n' h.not_within_nil rfl rfl
    by_cases howner : ∃ i, hole = some [i]
    · obtain ⟨i, rfl⟩ := howner
      exact fun R w w' hw => owner_simulated hout h hmethods hw
    · rw [not_exists] at howner
      refine visit_simulated_of_children ⟨_, h⟩ hmethods (h.children_of_ne howner)
        (forall₂_zipIdx fun i => ?_)
      rcases rel_cases (h.getElem? i) with ⟨hnone, hnone'⟩ | ⟨c, c', hc, hc', hchild⟩
      · rw [hnone, hnone']
        exact .none
      · rw [hc, hc']
        unfold AlikeChild at hchild
        rw [if_neg (howner i)] at hchild
        refine .some ⟨hchild.head.role.symm, hchild.head.isNamed_eq, ?_⟩
        apply ih c (List.mem_of_getElem? hc) hchild
        · intro below m m' hbelow hm hm'
          apply hkeeps (i :: below) m m' fun hwithin => hbelow (h.within_holeBelow.mpr hwithin)
          · simpa [hc] using hm
          · simpa [hc'] using hm'
        · intro below
          rw [h.within_holeBelow, List.append_assoc]
          exact hout (i :: below)

theorem related_start (S : Spelling) : Related S (fun a b => a = 0 ∧ b = 0) {} {} where
  guards := .nil
  scope := .of_context rfl rfl
  id := ⟨rfl, rfl⟩
  name := rfl
  parent := rfl
  inTest := rfl
  known a b hab := by
    obtain ⟨rfl, rfl⟩ := hab
    exact ⟨Nat.one_pos, Nat.one_pos⟩
  paired a b a' b' hab hab' := by
    obtain ⟨rfl, rfl⟩ := hab
    obtain ⟨rfl, rfl⟩ := hab'
    simp

end Walker

/-- Whether a path is not in the hole. -/
def outside (hole : Option Path) (path : Path) : Bool :=
  !hole.any (·.isPrefixOf path)

theorem outside_iff {hole : Option Path} {path : Path} :
    outside hole path = true ↔ ¬Within hole path := by
  cases hole with
  | none => simp [outside, Within]
  | some h => simp [outside, Within, ← Bool.not_eq_true]

/-- Walks through corresponding trees visit the same outside of the hole. -/
theorem visits_simulated {S : Spelling} {hole : Option Path} {tree tree' : Node}
    (h : Alike S hole tree tree') (hkeeps : KeepsMethodsOutside hole tree tree') :
    List.Forall₂ (Visit.Related S) ((visits tree).filter (outside hole ·.path))
      ((visits tree').filter (outside hole ·.path)) := by
  have hwalks : Walker.SimulatesAt S (outside hole) [] tree tree' :=
    Walker.visit_simulated h hkeeps fun _ => outside_iff
  obtain ⟨R, -, -, hvisits⟩ := hwalks _ _ _ (Walker.related_start S)
  exact hvisits

end Availability
