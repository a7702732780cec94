import Availability.Proofs.Traversal
import Mathlib.Data.List.Forall2

/-!
# Which guards are active where

A walk keeps its guards in frames that it opens and closes. Here the same is said by places in the
tree alone: a test comes into effect if it stands inside of a condition and not in the body of a
function in there, and it protects what the innermost conditional around it has in its condition or
body. The invariant of the walk is that its frames belong to the conditionals around the node it is
at, and that each holds the guards met so far for which that conditional is the innermost.
-/
namespace Availability

open Php

/-- The node at `q` is of certain kinds, and its part with a role has `p` inside. -/
def Inside (tree : Node) (is : Kind → Bool) (role : Role) (q p : Path) : Prop :=
  ∃ n i, tree.at? q = some n ∧ is n.kind = true ∧ n.place? role = some i ∧ q ++ [i] <+: p

/-- The node at `q` is a conditional that has `p` in its condition or in its body. -/
def Covers (tree : Node) (q p : Path) : Prop :=
  Inside tree Kind.isConditional .condition q p ∨ Inside tree Kind.isConditional .body q p

def Innermost (tree : Node) (q p : Path) : Prop :=
  Covers tree q p ∧ ∀ r, Covers tree r p → r <+: q

/-- `p` is inside of a condition, with no body of a function between. -/
def Tested (tree : Node) (p : Path) : Prop :=
  ∃ q, Inside tree Kind.isConditional .condition q p ∧
    ∀ r, q <+: r → ¬Inside tree Kind.isFunction .body r p

/-- The node at `q` is a conditional that has `p` in one of its alternatives. -/
def InAlternative (tree : Node) (q p : Path) : Prop :=
  ∃ n c i, tree.at? q = some n ∧ n.kind.isConditional = true ∧ n.children[i]? = some c ∧
    c.role = .alternative ∧ q ++ [i] <+: p

section Places

variable {tree n : Node} {is : Kind → Bool} {role : Role} {p q r : Path} {i : Nat}

theorem Inside.isPrefix (h : Inside tree is role q p) : q <+: p := by
  obtain ⟨n, i, -, -, -, hp⟩ := h
  exact (List.prefix_append q [i]).trans hp

theorem Inside.not_isPrefix (h : Inside tree is role q p) : ¬p <+: q := by
  obtain ⟨n, i, -, -, -, hp⟩ := h
  intro hq
  have := hp.length_le
  have := hq.length_le
  simp only [List.length_append, List.length_singleton] at *
  omega

theorem Covers.isPrefix (h : Covers tree q p) : q <+: p :=
  h.elim Inside.isPrefix Inside.isPrefix

theorem Covers.not_isPrefix (h : Covers tree q p) : ¬p <+: q :=
  h.elim Inside.not_isPrefix Inside.not_isPrefix

/-- Going down to a child, only the node itself can be a further one to be inside of. -/
theorem inside_concat (hn : tree.at? p = some n) :
    Inside tree is role q (p ++ [i]) ↔
      Inside tree is role q p ∨ (q = p ∧ is n.kind = true ∧ n.place? role = some i) := by
  constructor
  · rintro ⟨m, j, hm, hkind, hplace, hp⟩
    rcases List.prefix_concat_iff.mp hp with heq | hp
    · obtain ⟨rfl, rfl⟩ : q = p ∧ j = i := by simpa using heq
      rw [hn, Option.some.injEq] at hm
      exact .inr ⟨rfl, hm ▸ hkind, hm ▸ hplace⟩
    · exact .inl ⟨m, j, hm, hkind, hplace, hp⟩
  · rintro (⟨m, j, hm, hkind, hplace, hp⟩ | ⟨rfl, hkind, hplace⟩)
    · exact ⟨m, j, hm, hkind, hplace, hp.trans (List.prefix_append p [i])⟩
    · exact ⟨n, i, hn, hkind, hplace, List.prefix_refl _⟩

theorem covers_concat (hn : tree.at? p = some n) :
    Covers tree q (p ++ [i]) ↔ Covers tree q p ∨ (q = p ∧ n.kind.isConditional = true ∧
      (n.place? .condition = some i ∨ n.place? .body = some i)) := by
  simp only [Covers, inside_concat hn]
  tauto

theorem not_isFunction_of_isConditional {kind : Kind} (h : kind.isConditional = true) :
    ¬kind.isFunction = true := by
  revert h
  cases kind <;> decide

theorem tested_condition (hn : tree.at? p = some n) (hkind : n.kind.isConditional = true)
    (hi : n.place? .condition = some i) : Tested tree (p ++ [i]) := by
  refine ⟨p, (inside_concat hn).mpr (.inr ⟨rfl, hkind, hi⟩), fun r hr hbody => ?_⟩
  rcases (inside_concat hn).mp hbody with hbody | ⟨-, hfunction, -⟩
  · exact hbody.not_isPrefix hr
  · exact not_isFunction_of_isConditional hkind hfunction

theorem not_tested_body (hn : tree.at? p = some n) (hkind : n.kind.isFunction = true)
    (hi : n.place? .body = some i) : ¬Tested tree (p ++ [i]) := by
  rintro ⟨q, hq, hnone⟩
  rcases (inside_concat hn).mp hq with hq | ⟨-, hconditional, -⟩
  · exact hnone p hq.isPrefix ((inside_concat hn).mpr (.inr ⟨rfl, hkind, hi⟩))
  · exact not_isFunction_of_isConditional hconditional hkind

theorem tested_concat (hn : tree.at? p = some n)
    (hcondition : n.kind.isConditional = true → n.place? .condition ≠ some i)
    (hbody : n.kind.isFunction = true → n.place? .body ≠ some i) :
    Tested tree (p ++ [i]) ↔ Tested tree p := by
  have hc (q : Path) : Inside tree Kind.isConditional .condition q (p ++ [i]) ↔
      Inside tree Kind.isConditional .condition q p := by
    rw [inside_concat hn]
    exact or_iff_left fun h => hcondition h.2.1 h.2.2
  have hb (r : Path) : Inside tree Kind.isFunction .body r (p ++ [i]) ↔
      Inside tree Kind.isFunction .body r p := by
    rw [inside_concat hn]
    exact or_iff_left fun h => hbody h.2.1 h.2.2
  simp only [Tested, hc, hb]

theorem not_covers_of_inAlternative (h : InAlternative tree q p) : ¬Covers tree q p := by
  obtain ⟨n, c, i, hn, -, hc, hrole, hp⟩ := h
  have other {role : Role} (hne : role ≠ .alternative) :
      ¬Inside tree Kind.isConditional role q p := by
    rintro ⟨m, j, hm, -, hplace, hj⟩
    rw [hn, Option.some.injEq] at hm
    subst hm
    have heq : q ++ [i] = q ++ [j] :=
      (List.prefix_of_prefix_length_le hp hj (by simp)).eq_of_length (by simp)
    obtain rfl : i = j := by simpa using heq
    exact Node.place?_ne hc (hrole ▸ hne.symm) hplace
  rintro (h | h)
  · exact other (by decide) h
  · exact other (by decide) h

end Places

/-- The conditionals around `p`, innermost first, and whether it is tested. -/
structure Surrounded (tree : Node) (p : Path) (tested : Bool) (conditionals : List Path) :
    Prop where
  tested_iff : tested = true ↔ Tested tree p
  mem_iff : ∀ q, q ∈ conditionals ↔ Covers tree q p
  nested : conditionals.Pairwise fun a b => b <+: a ∧ ¬a <+: b

namespace Surrounded

variable {tree n : Node} {p : Path} {t : Bool} {qs : List Path} {i : Nat}

theorem root : Surrounded tree [] false [] where
  tested_iff := by
    refine ⟨nofun, ?_⟩
    rintro ⟨q, hq, -⟩
    exact absurd (List.nil_prefix) hq.not_isPrefix
  mem_iff q := by
    refine ⟨nofun, fun hq => ?_⟩
    exact absurd (List.nil_prefix) hq.not_isPrefix
  nested := .nil

/-- What is tested has a conditional around it, so there is a frame for its guard. -/
theorem conditionals_ne_nil (h : Surrounded tree p true qs) : qs ≠ [] := by
  obtain ⟨q, hq, -⟩ := h.tested_iff.mp rfl
  exact List.ne_nil_of_mem ((h.mem_iff q).mpr (.inl hq))

theorem head_innermost {q : Path} (h : Surrounded tree p t (q :: qs)) : Innermost tree q p := by
  refine ⟨(h.mem_iff q).mp (by simp), fun r hr => ?_⟩
  rcases List.mem_cons.mp ((h.mem_iff r).mpr hr) with rfl | hr
  · exact List.prefix_refl _
  · exact (List.rel_of_pairwise_cons h.nested hr).1

theorem not_innermost {q r : Path} (h : Surrounded tree p t (q :: qs)) (hr : r ∈ qs) :
    ¬Innermost tree r p := by
  intro hinner
  exact (List.rel_of_pairwise_cons h.nested hr).2 (hinner.2 q ((h.mem_iff q).mp (by simp)))

/-- A child that is no condition or body of a conditional and no body of a function. -/
theorem child (h : Surrounded tree p t qs) (hn : tree.at? p = some n)
    (hcondition : n.kind.isConditional = true → n.place? .condition ≠ some i)
    (hbody : n.kind.isConditional = true → n.place? .body ≠ some i)
    (hfunction : n.kind.isFunction = true → n.place? .body ≠ some i) :
    Surrounded tree (p ++ [i]) t qs where
  tested_iff := h.tested_iff.trans (tested_concat hn hcondition hfunction).symm
  mem_iff q := by
    rw [h.mem_iff, covers_concat hn, or_iff_left]
    rintro ⟨-, hkind, hi | hi⟩
    · exact hcondition hkind hi
    · exact hbody hkind hi
  nested := h.nested

theorem functionBody (h : Surrounded tree p t qs) (hn : tree.at? p = some n)
    (hkind : n.kind.isFunction = true) (hi : n.place? .body = some i) :
    Surrounded tree (p ++ [i]) false qs where
  tested_iff := by simpa using not_tested_body hn hkind hi
  mem_iff q := by
    rw [h.mem_iff, covers_concat hn, or_iff_left]
    exact fun hq => not_isFunction_of_isConditional hq.2.1 hkind
  nested := h.nested

private theorem nested_cons (h : Surrounded tree p t qs) :
    (p :: qs).Pairwise fun a b => b <+: a ∧ ¬a <+: b := by
  refine List.pairwise_cons.mpr ⟨fun q hq => ?_, h.nested⟩
  have hcovers := (h.mem_iff q).mp hq
  exact ⟨hcovers.isPrefix, hcovers.not_isPrefix⟩

private theorem mem_cons_iff (h : Surrounded tree p t qs) (hn : tree.at? p = some n)
    (hkind : n.kind.isConditional = true)
    (hi : n.place? .condition = some i ∨ n.place? .body = some i) (q : Path) :
    q ∈ p :: qs ↔ Covers tree q (p ++ [i]) := by
  rw [covers_concat hn, List.mem_cons, h.mem_iff]
  tauto

theorem condition (h : Surrounded tree p t qs) (hn : tree.at? p = some n)
    (hkind : n.kind.isConditional = true) (hi : n.place? .condition = some i) :
    Surrounded tree (p ++ [i]) true (p :: qs) where
  tested_iff := by simpa using tested_condition hn hkind hi
  mem_iff := h.mem_cons_iff hn hkind (.inl hi)
  nested := h.nested_cons

theorem conditionalBody (h : Surrounded tree p t qs) (hn : tree.at? p = some n)
    (hkind : n.kind.isConditional = true) (hcondition : n.place? .condition ≠ some i)
    (hi : n.place? .body = some i) : Surrounded tree (p ++ [i]) t (p :: qs) where
  tested_iff := by
    refine h.tested_iff.trans (tested_concat hn (fun _ => hcondition) fun hfunction => ?_).symm
    exact absurd hfunction (not_isFunction_of_isConditional hkind)
  mem_iff := h.mem_cons_iff hn hkind (.inr hi)
  nested := h.nested_cons

end Surrounded

/-- A visited call that is a guard and comes into effect for the conditional at `q`. -/
def Registers (tree : Node) (q : Path) (g : Visit) (guard : Guard) : Prop :=
  Guard.ofCall? g.walker.scope g.node = some guard ∧ Tested tree g.path ∧ Innermost tree q g.path

/-- The frame of the conditional at `q` after some visits. -/
def IsFrame (tree : Node) (done : List Visit) (q : Path) (frame : List Guard) : Prop :=
  ∀ guard, guard ∈ frame ↔ ∃ g ∈ done, Registers tree q g guard

/-- The invariant of a walk at a node that is tested or not and has the given conditionals around
it. -/
structure InFrames (tree : Node) (done : List Visit) (tested : Bool) (conditionals : List Path)
    (w : Walker) : Prop where
  inTest : w.inTest = tested
  frames : List.Forall₂ (IsFrame tree done) conditionals w.guards.frames

/-- The guards that are active at a call, when some visits are done. -/
def ActiveAt (tree : Node) (done : List Visit) (c : Visit) : Prop :=
  ∀ guard, guard ∈ c.walker.guards.active ↔
    ∃ g ∈ done, ∃ q, Registers tree q g guard ∧ Covers tree q c.path

/-- The active guards are right at every call of a list of visits that come after others. -/
def AllActive (tree : Node) : List Visit → List Visit → Prop
  | _, [] => True
  | done, v :: rest =>
    (v.node.isCall = true → ActiveAt tree (done ++ [v]) v) ∧ AllActive tree (done ++ [v]) rest

theorem allActive_append {tree : Node} {done first rest : List Visit} :
    AllActive tree done (first ++ rest) ↔
      AllActive tree done first ∧ AllActive tree (done ++ first) rest := by
  induction first generalizing done with
  | nil => simp [AllActive]
  | cons v first ih =>
    simp only [List.cons_append, AllActive, ih, and_assoc, List.append_assoc, List.nil_append]

/-- Nothing below a path has been visited. -/
def Fresh (done : List Visit) (p : Path) : Prop :=
  ∀ g ∈ done, ¬p <+: g.path

theorem Fresh.append {done more : List Visit} {p : Path} (h : Fresh done p) (hmore : Fresh more p) :
    Fresh (done ++ more) p := by
  intro g hg
  exact (List.mem_append.mp hg).elim (h g) (hmore g)

theorem Fresh.child {done : List Visit} {p : Path} (h : Fresh done p) (n : Node) (w : Walker)
    (i : Nat) : Fresh (done ++ [⟨p, n, w⟩]) (p ++ [i]) := by
  refine Fresh.append (fun g hg hp => h g hg ((List.prefix_append p [i]).trans hp)) ?_
  intro g hg hp
  obtain rfl : g = ⟨p, n, w⟩ := by simpa using hg
  have := hp.length_le
  simp only [List.length_append, List.length_singleton] at this
  omega

section Frames

variable {tree : Node} {done : List Visit} {t : Bool} {qs : List Path} {w : Walker} {v : Visit}
  {q : Path} {frame : List Guard}

theorem isFrame_concat_of_not (hv : ∀ guard, ¬Registers tree q v guard)
    (h : IsFrame tree done q frame) : IsFrame tree (done ++ [v]) q frame := by
  intro guard
  rw [h guard]
  constructor
  · rintro ⟨g, hg, hreg⟩
    exact ⟨g, List.mem_append_left _ hg, hreg⟩
  · rintro ⟨g, hg, hreg⟩
    rcases List.mem_append.mp hg with hg | hg
    · exact ⟨g, hg, hreg⟩
    · obtain rfl : g = v := by simpa using hg
      exact absurd hreg (hv guard)

theorem isFrame_concat {guard : Guard}
    (hv : Registers tree q v guard) (h : IsFrame tree done q frame) :
    IsFrame tree (done ++ [v]) q (frame ++ [guard]) := by
  intro other
  rw [List.mem_append, h other]
  constructor
  · rintro (⟨g, hg, hreg⟩ | hother)
    · exact ⟨g, List.mem_append_left _ hg, hreg⟩
    · obtain rfl : other = guard := by simpa using hother
      exact ⟨v, by simp, hv⟩
  · rintro ⟨g, hg, hreg⟩
    rcases List.mem_append.mp hg with hg | hg
    · exact .inl ⟨g, hg, hreg⟩
    · obtain rfl : g = v := by simpa using hg
      have heq : some other = some guard := hreg.1.symm.trans hv.1
      exact .inr (by simpa using heq)

/-- A visit that brings no guard into effect leaves all frames as they are. -/
theorem InFrames.concat (h : InFrames tree done t qs w)
    (hv : ∀ q guard, ¬Registers tree q v guard) : InFrames tree (done ++ [v]) t qs w where
  inTest := h.inTest
  frames := h.frames.imp fun q _ => isFrame_concat_of_not (hv q)

theorem InFrames.recordAssignment (h : InFrames tree done t qs w) (n : Node) :
    InFrames tree done t qs (w.recordAssignment n) := by
  rcases w.recordAssignment_eq n with heq | ⟨name, classes, heq⟩
  · rwa [heq]
  · rw [heq]
    exact ⟨h.inTest, h.frames⟩

theorem InFrames.recordCatch (h : InFrames tree done t qs w) (n : Node) :
    InFrames tree done t qs (w.recordCatch n) := by
  rcases w.recordCatch_eq n with heq | ⟨name, classes, heq⟩
  · rwa [heq]
  · rw [heq]
    exact ⟨h.inTest, h.frames⟩

end Frames

namespace Walker

variable {tree n : Node} {path : Path} {done : List Visit} {t : Bool} {qs : List Path} {w : Walker}

/-- What a visit of one child leaves fresh. -/
theorem fresh_visit {c : Node} {i j : Nat} (h : i ≠ j) :
    Fresh (visit (path ++ [i]) c w).2 (path ++ [j]) := by
  intro g hg hp
  have hi := prefix_of_mem_visit hg
  have heq : path ++ [i] = path ++ [j] :=
    (List.prefix_of_prefix_length_le hi hp (by simp)).eq_of_length (by simp)
  exact h (by simpa using heq)

theorem fresh_visitEach {children : List (Node × Nat)} {j : Nat}
    (h : ∀ c ∈ children, c.2 ≠ j) : Fresh (visitEach path children w).2 (path ++ [j]) := by
  intro g hg
  obtain ⟨c, hc, before, hv⟩ := mem_visitEach hg
  exact fresh_visit (h c hc) g hv

@[simp] theorem observe_scope : (w.observe n).scope = w.scope := by
  unfold observe
  split
  · split <;> rfl
  · rfl

theorem observe_inTest : (w.observe n).inTest = w.inTest := by
  unfold observe
  split
  · split <;> rfl
  · rfl

/-- Arriving at a node: a guard that is tested goes into the frame of the innermost conditional. -/
theorem observe_inFrames (hs : Surrounded tree path t qs) (h : InFrames tree done t qs w) :
    InFrames tree (done ++ [⟨path, n, w.observe n⟩]) t qs (w.observe n) := by
  cases hguard : Guard.ofCall? w.scope n with
  | none =>
    have hw : w.observe n = w := by simp [observe, hguard]
    rw [hw]
    exact h.concat fun q guard hreg => by simp [Registers, hguard] at hreg
  | some guard =>
    cases t with
    | false =>
      have hw : w.observe n = w := by simp [observe, h.inTest]
      rw [hw]
      exact h.concat fun q guard hreg => by simpa using hs.tested_iff.mpr hreg.2.1
    | true =>
      obtain ⟨q, rest, rfl⟩ := List.exists_cons_of_ne_nil hs.conditionals_ne_nil
      obtain ⟨frame, frames, hframe, hframes, hall⟩ := List.forall₂_cons_left_iff.mp h.frames
      have hw : w.observe n = { w with guards := ⟨(frame ++ [guard]) :: frames⟩ } := by
        simp [observe, h.inTest, hguard, Guards.register, hall]
      have hreg : Registers tree q ⟨path, n, w.observe n⟩ guard :=
        ⟨by simp [hguard], hs.tested_iff.mp rfl, hs.head_innermost⟩
      refine ⟨by rw [observe_inTest, h.inTest], ?_⟩
      have hother : List.Forall₂ (IsFrame tree (done ++ [⟨path, n, w.observe n⟩])) rest frames :=
        ((List.forall₂_and_left _ _).mpr ⟨fun r hr => hs.not_innermost hr, hframes⟩).imp
          fun r _ hr => isFrame_concat_of_not (fun _ hreg => hr.1 hreg.2.2) hr.2
      rw [hw] at hreg hother ⊢
      exact .cons (isFrame_concat hreg hframe) hother

/-- At a call, the frames hold the guards that are active by their places. -/
theorem activeAt_of_inFrames {c : Visit} (hs : Surrounded tree c.path t qs)
    (h : InFrames tree done t qs c.walker) : ActiveAt tree done c := by
  intro guard
  have hframes (frame : List Guard) (hframe : frame ∈ c.walker.guards.frames) :
      ∃ q ∈ qs, IsFrame tree done q frame := by
    obtain ⟨k, hk, rfl⟩ := List.getElem_of_mem hframe
    have hlen := h.frames.length_eq
    exact ⟨qs[k], List.getElem_mem _, h.frames.get (hlen ▸ hk) hk⟩
  have hqs (q : Path) (hq : q ∈ qs) :
      ∃ frame ∈ c.walker.guards.frames, IsFrame tree done q frame := by
    obtain ⟨k, hk, rfl⟩ := List.getElem_of_mem hq
    have hlen := h.frames.length_eq
    exact ⟨c.walker.guards.frames[k], List.getElem_mem _, h.frames.get hk (hlen ▸ hk)⟩
  rw [Guards.active, List.mem_flatten]
  constructor
  · rintro ⟨frame, hframe, hguard⟩
    obtain ⟨q, hq, hisFrame⟩ := hframes frame hframe
    obtain ⟨g, hg, hreg⟩ := (hisFrame guard).mp hguard
    exact ⟨g, hg, q, hreg, (hs.mem_iff q).mp hq⟩
  · rintro ⟨g, hg, q, hreg, hcovers⟩
    obtain ⟨frame, hframe, hisFrame⟩ := hqs q ((hs.mem_iff q).mpr hcovers)
    exact ⟨frame, hframe, (hisFrame guard).mpr ⟨g, hg, hreg⟩⟩

/-- Visiting a node of the tree keeps the invariant, and every call on the way has the right
guards. -/
def Tracked (tree n : Node) : Prop :=
  ∀ path done t qs w, tree.at? path = some n → Surrounded tree path t qs →
    InFrames tree done t qs w → Fresh done path →
      InFrames tree (done ++ (visit path n w).2) t qs (visit path n w).1 ∧
        AllActive tree done (visit path n w).2

theorem visitEach_tracked {children : List (Node × Nat)}
    (hn : tree.at? path = some n) (ih : ∀ c ∈ n.children, Tracked tree c)
    (hchildren : ∀ c ∈ children, n.children[c.2]? = some c.1)
    (hnodup : (children.map Prod.snd).Nodup)
    (hs : ∀ c ∈ children, Surrounded tree (path ++ [c.2]) t qs)
    (hfresh : ∀ c ∈ children, Fresh done (path ++ [c.2])) (h : InFrames tree done t qs w) :
    InFrames tree (done ++ (visitEach path children w).2) t qs (visitEach path children w).1 ∧
      AllActive tree done (visitEach path children w).2 := by
  induction children generalizing done w with
  | nil => simpa [visitEach, AllActive] using h
  | cons c rest ihrest =>
    have hc := hchildren c (by simp)
    have hat : tree.at? (path ++ [c.2]) = some c.1 := by simp [Node.at?_concat, hn, hc]
    obtain ⟨hfirst, hactive⟩ := ih c.1 (List.mem_of_getElem? hc) _ _ _ _ _ hat
      (hs c (by simp)) h (hfresh c (by simp))
    obtain ⟨hnotMem, hnodup⟩ := List.nodup_cons.mp hnodup
    have hfresh' : ∀ d ∈ rest, Fresh (done ++ (visit (path ++ [c.2]) c.1 w).2) (path ++ [d.2]) := by
      intro d hd
      refine (hfresh d (by simp [hd])).append (fresh_visit ?_)
      intro heq
      exact hnotMem (heq ▸ List.mem_map_of_mem hd)
    obtain ⟨hrest, hactive'⟩ := ihrest (fun d hd => hchildren d (by simp [hd])) hnodup
      (fun d hd => hs d (by simp [hd])) hfresh' hfirst
    simp only [visitEach, ← List.append_assoc]
    exact ⟨hrest, allActive_append.mpr ⟨hactive, hactive'⟩⟩

/-- Children of a node that is neither a conditional nor a function have the same around them. -/
theorem visitEach_passing {children : List (Node × Nat)} {here : Walker}
    (hn : tree.at? path = some n) (ih : ∀ c ∈ n.children, Tracked tree c)
    (hconditional : n.kind.manner ≠ .conditional) (hfunction : n.kind.manner ≠ .function)
    (hs : Surrounded tree path t qs) (hfresh : Fresh done path)
    (hchildren : ∀ c ∈ children, n.children[c.2]? = some c.1)
    (hnodup : (children.map Prod.snd).Nodup)
    (h : InFrames tree (done ++ [⟨path, n, here⟩]) t qs w) :
    InFrames tree (done ++ ⟨path, n, here⟩ :: (visitEach path children w).2) t qs
        (visitEach path children w).1 ∧
      AllActive tree (done ++ [⟨path, n, here⟩]) (visitEach path children w).2 := by
  rw [Ne, Kind.manner_eq_conditional] at hconditional
  rw [Ne, Kind.manner_eq_function] at hfunction
  have hall := visitEach_tracked hn ih hchildren hnodup
    (fun c _ => hs.child hn (absurd · hconditional) (absurd · hconditional) (absurd · hfunction))
    (fun c _ => hfresh.child n here c.2) h
  simpa only [List.append_assoc, List.singleton_append] using hall

/-- Inside of a function nothing is tested, and its conditionals are closed at its end. -/
theorem visitEach_functionBody (hn : tree.at? path = some n) (ih : ∀ c ∈ n.children, Tracked tree c)
    (hkind : n.kind.isFunction = true) (hs : Surrounded tree path t qs) (hfresh : Fresh done path)
    {here : Walker} (hbody : w.inTest = false)
    (h : List.Forall₂ (IsFrame tree (done ++ [⟨path, n, here⟩])) qs w.guards.frames) :
    InFrames tree (done ++ ⟨path, n, here⟩ :: (visitEach path (n.first .body) w).2) false qs
        (visitEach path (n.first .body) w).1 ∧
      AllActive tree (done ++ [⟨path, n, here⟩]) (visitEach path (n.first .body) w).2 := by
  have hall := visitEach_tracked hn ih (fun _ => Node.getElem?_of_mem_first) (n.nodup_first _)
    (fun c hc => hs.functionBody hn hkind (Node.place?_of_mem_first hc))
    (fun c _ => hfresh.child n here c.2) ⟨hbody, h⟩
  simpa only [List.append_assoc, List.singleton_append] using hall

/-- The frame of a conditional that has not been entered is empty. -/
theorem isFrame_nil (hfresh : Fresh done path) (here : Walker) :
    IsFrame tree (done ++ [⟨path, n, here⟩]) path [] := by
  intro guard
  refine ⟨nofun, ?_⟩
  rintro ⟨g, hg, -, -, hinner⟩
  rcases List.mem_append.mp hg with hg | hg
  · exact absurd hinner.1.isPrefix (hfresh g hg)
  · obtain rfl : g = ⟨path, n, here⟩ := by simpa using hg
    exact absurd (List.prefix_refl _) hinner.1.not_isPrefix

theorem fresh_visitEach_first {role : Role} {d : Node × Nat} (hd : n.children[d.2]? = some d.1)
    (hrole : d.1.role ≠ role) : Fresh (visitEach path (n.first role) w).2 (path ++ [d.2]) := by
  refine fresh_visitEach fun c hc => Node.position_ne (Node.getElem?_of_mem_first hc) hd ?_
  rw [Node.role_of_mem_first hc]
  exact hrole.symm

section Conditional

variable (hn : tree.at? path = some n) (ih : ∀ c ∈ n.children, Tracked tree c)
  (hkind : n.kind.isConditional = true) (hs : Surrounded tree path t qs) (hfresh : Fresh done path)
  (h : InFrames tree (done ++ [⟨path, n, w⟩]) t qs w)

include hn ih hkind hs hfresh h

/-- In the condition the frame of the conditional is new, and what is met there is tested. -/
theorem visitCondition_tracked :
    InFrames tree (done ++ [⟨path, n, w⟩] ++ (visitCondition path n w).2) true (path :: qs)
        (visitCondition path n w).1 ∧
      AllActive tree (done ++ [⟨path, n, w⟩]) (visitCondition path n w).2 :=
  visitEach_tracked hn ih (fun _ => Node.getElem?_of_mem_first) (n.nodup_first _)
    (fun _ hc => hs.condition hn hkind (Node.place?_of_mem_first hc))
    (fun c _ => hfresh.child n w c.2) ⟨rfl, .cons (isFrame_nil hfresh w) h.frames⟩

/-- In the body the frame stays, and what is met there is tested if the conditional is. -/
theorem visitBody_tracked :
    InFrames tree (done ++ [⟨path, n, w⟩] ++ (visitCondition path n w).2 ++ (visitBody path n w).2)
        t (path :: qs) (visitBody path n w).1 ∧
      AllActive tree (done ++ [⟨path, n, w⟩] ++ (visitCondition path n w).2)
        (visitBody path n w).2 := by
  have hcondition := (visitCondition_tracked hn ih hkind hs hfresh h).1
  refine visitEach_tracked hn ih (fun _ => Node.getElem?_of_mem_first) (n.nodup_first _)
    (fun c hc => ?_) (fun c hc => ?_) ⟨h.inTest, hcondition.frames⟩
  · have hrole : c.1.role ≠ .condition := by simp [Node.role_of_mem_first hc]
    exact hs.conditionalBody hn hkind (Node.place?_ne (Node.getElem?_of_mem_first hc) hrole)
      (Node.place?_of_mem_first hc)
  · have hrole : c.1.role ≠ .condition := by simp [Node.role_of_mem_first hc]
    exact (hfresh.child n w c.2).append
      (fresh_visitEach_first (Node.getElem?_of_mem_first hc) hrole)

/-- In the alternatives the frame is gone. -/
theorem visitAlternatives_tracked :
    InFrames tree
        (done ++ [⟨path, n, w⟩] ++ (visitCondition path n w).2 ++ (visitBody path n w).2 ++
          (visitAlternatives path n w).2) t qs (visitAlternatives path n w).1 ∧
      AllActive tree
        (done ++ [⟨path, n, w⟩] ++ (visitCondition path n w).2 ++ (visitBody path n w).2)
        (visitAlternatives path n w).2 := by
  have hbody := (visitBody_tracked hn ih hkind hs hfresh h).1
  obtain ⟨frame, frames, -, hframes, hall⟩ := List.forall₂_cons_left_iff.mp hbody.frames
  refine visitEach_tracked hn ih (fun _ => Node.getElem?_of_mem_every) (n.nodup_every _)
    (fun c hc => ?_) (fun c hc => ?_) ⟨hbody.inTest, by simpa [Guards.leave, hall] using hframes⟩
  · have hc' := Node.getElem?_of_mem_every hc
    have hrole := Node.role_of_mem_every hc
    exact hs.child hn (fun _ => Node.place?_ne hc' (by simp [hrole]))
      (fun _ => Node.place?_ne hc' (by simp [hrole]))
      (absurd · (not_isFunction_of_isConditional hkind))
  · have hc' := Node.getElem?_of_mem_every hc
    have hrole := Node.role_of_mem_every hc
    exact ((hfresh.child n w c.2).append (fresh_visitEach_first hc' (by simp [hrole]))).append
      (fresh_visitEach_first hc' (by simp [hrole]))

end Conditional

theorem tracked (tree n : Node) : Tracked tree n := by
  induction n using Node.induction_on_children with
  | step n ih =>
    intro path done t qs w hn hs h hfresh
    have harrive := observe_inFrames (n := n) hs h
    have hcall := activeAt_of_inFrames (c := ⟨path, n, w.observe n⟩) hs harrive
    -- any node but a plain one is no guard, so the walker stays as it is
    have hw (hm : n.kind.manner ≠ .plain) : w.observe n = w :=
      observe_of_ne fun hkind => hm (by rw [hkind]; rfl)
    cases hm : n.kind.manner with
    | conditional =>
      rw [hw (by simp [hm])] at harrive hcall
      have hkind := Kind.manner_eq_conditional.mp hm
      have hcondition := visitCondition_tracked hn ih hkind hs hfresh harrive
      have hbody := visitBody_tracked hn ih hkind hs hfresh harrive
      have halternatives := visitAlternatives_tracked hn ih hkind hs hfresh harrive
      rw [visit_conditional hm]
      refine ⟨by simpa using halternatives.1, fun _ => hcall, ?_⟩
      refine allActive_append.mpr ⟨allActive_append.mpr ⟨hcondition.2, hbody.2⟩, ?_⟩
      simpa using halternatives.2
    | function =>
      rw [hw (by simp [hm])] at harrive hcall
      have hkind := Kind.manner_eq_function.mp hm
      rw [visit_function hm]
      have hbody := visitEach_functionBody hn ih hkind hs hfresh
        (w := { w with scope := w.functionScope n, nextScope := w.nextScope + 1, inTest := false })
        rfl harrive.frames
      exact ⟨⟨h.inTest, hbody.1.frames⟩, fun _ => hcall, hbody.2⟩
    | arrow =>
      rw [hw (by simp [hm])] at harrive hcall
      rw [visit_arrow hm]
      have hbody := visitEach_passing hn ih (by simp [hm]) (by simp [hm]) hs hfresh
        (fun _ => Node.getElem?_of_mem_first) (n.nodup_first .body)
        (w := { w with scope := bindParameters n w.scope }) ⟨harrive.inTest, harrive.frames⟩
      exact ⟨⟨hbody.1.inTest, hbody.1.frames⟩, fun _ => hcall, hbody.2⟩
    | assignment =>
      rw [hw (by simp [hm])] at harrive hcall
      rw [visit_assignment hm]
      have hbelow := visitEach_passing hn ih (by simp [hm]) (by simp [hm]) hs hfresh
        (fun _ => Node.getElem?_of_mem_named) n.nodup_named harrive
      exact ⟨hbelow.1.recordAssignment n, fun _ => hcall, hbelow.2⟩
    | handler =>
      rw [hw (by simp [hm])] at harrive hcall
      rw [visit_handler hm]
      have hbelow := visitEach_passing hn ih (by simp [hm]) (by simp [hm]) hs hfresh
        (fun _ => Node.getElem?_of_mem_named) n.nodup_named (harrive.recordCatch n)
      exact ⟨hbelow.1, fun _ => hcall, hbelow.2⟩
    | classLike =>
      rw [hw (by simp [hm])] at harrive hcall
      rw [visit_classLike hm]
      have hbelow := visitEach_passing hn ih (by simp [hm]) (by simp [hm]) hs hfresh
        (fun _ => Node.getElem?_of_mem_named) n.nodup_named
        (w := { w with around := classContext n }) ⟨harrive.inTest, harrive.frames⟩
      exact ⟨⟨hbelow.1.inTest, hbelow.1.frames⟩, fun _ => hcall, hbelow.2⟩
    | plain =>
      rw [visit_plain hm]
      have hbelow := visitEach_passing hn ih (by simp [hm]) (by simp [hm]) hs hfresh
        (fun _ => Node.getElem?_of_mem_named) n.nodup_named harrive
      exact ⟨hbelow.1, fun _ => hcall, hbelow.2⟩

end Walker

theorem allActive_visits (tree : Node) : AllActive tree [] (visits tree) :=
  (Walker.tracked tree tree [] [] false [] {} rfl .root ⟨rfl, .nil⟩ nofun).2

/-- The guards that are active at a call are those that come from calls up to and including it, are
tested, and belong to a conditional that has the call in its condition or body. A conditional has
nothing there of its alternatives and of what stands outside of it. -/
theorem active_guards_exact {tree : Node} {before after : List Visit} {c : Visit}
    (h : visits tree = before ++ c :: after) (hc : c.node.isCall = true) :
    (∀ guard, guard ∈ c.walker.guards.active ↔
      ∃ g ∈ before ++ [c], g.node.isCall = true ∧
        Guard.ofCall? g.walker.scope g.node = some guard ∧ Tested tree g.path ∧
          ∃ q, Innermost tree q g.path ∧ Covers tree q c.path) ∧
    (∀ q, InAlternative tree q c.path ∨ ¬q <+: c.path → ¬Covers tree q c.path) ∧
    ∀ v ∈ before ++ [c], tree.at? v.path = some v.node := by
  have hactive : ActiveAt tree (before ++ [c]) c := by
    have hall := allActive_visits tree
    rw [h, allActive_append] at hall
    simpa using hall.2.1 hc
  refine ⟨fun guard => ?_, ?_, fun v hv => at?_of_mem_visits ?_⟩
  · rw [hactive guard]
    constructor
    · rintro ⟨g, hg, q, ⟨hguard, htested, hinner⟩, hcovers⟩
      have hcall : g.node.isCall = true := by
        by_contra hnot
        rw [Guard.ofCall?_of_ne fun hkind => hnot (by simp [Node.isCall, hkind])] at hguard
        exact nomatch hguard
      exact ⟨g, hg, hcall, hguard, htested, q, hinner, hcovers⟩
    · rintro ⟨g, hg, -, hguard, htested, q, hinner, hcovers⟩
      exact ⟨g, hg, q, ⟨hguard, htested, hinner⟩, hcovers⟩
  · rintro q (hq | hq)
    · exact not_covers_of_inAlternative hq
    · exact fun hcovers => hq hcovers.isPrefix
  · rw [h]
    rcases List.mem_append.mp hv with hv | hv
    · exact List.mem_append_left _ hv
    · exact List.mem_append_right _ (by simp_all)

/-- A call of a function in the body of a conditional that tests for it. -/
def guardedCall : Node :=
  let call (role : Role) (name : String) (arguments : List Node) : Node :=
    .mk .functionCall role 2 none
      [.mk .name .callee 2 (some name) [], .mk .arguments .arguments 2 none arguments]
  let tested : Node := .mk .argument .none 2 none [.mk .singleQuoted .none 2 (some "'wp_new'") []]
  .mk .program .none 1 none [
    .mk .ifStatement .none 2 none [
      .mk .parenthesized .condition 2 none [call .none "function_exists" [tested]],
      .mk .other .body 2 none [call .none "WP_New" []]]]

theorem active_guards_exact_guardedCall :
    ∃ before c after, visits guardedCall = before ++ c :: after ∧ c.node.isCall = true ∧
      c.path = [0, 1, 0] ∧ c.walker.guards.active = [.function "wp_new"] ∧
      ∃ g ∈ before ++ [c], g.node.isCall = true ∧
        Guard.ofCall? g.walker.scope g.node = some (.function "wp_new") ∧
          Tested guardedCall g.path ∧
            ∃ q, Innermost guardedCall q g.path ∧ Covers guardedCall q [0, 1, 0] := by
  have hlength : 9 < (visits guardedCall).length := by decide +kernel
  have hsplit := (List.take_append_drop 9 (visits guardedCall)).symm
  rw [List.drop_eq_getElem_cons hlength] at hsplit
  have hactive : (visits guardedCall)[9].walker.guards.active = [.function "wp_new"] := rfl
  have hcall : (visits guardedCall)[9].node.isCall = true := rfl
  refine ⟨_, _, _, hsplit, hcall, rfl, hactive, ?_⟩
  exact ((active_guards_exact hsplit hcall).1 _).mp (by simp [hactive])

end Availability
