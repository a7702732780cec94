import Availability.Proofs.Reading

/-!
# Walkers that correspond

Two walks through corresponding trees give different ids to their scopes when one of them passes
through more functions. A relation between ids that pairs each with one other tells which scopes are
the same; it grows as functions are entered. Walkers that correspond under it still do after the
walks have passed the same node.
-/
namespace Availability

open Php

/-- The method that a call of `method_exists` tests for. -/
def Php.Node.testedMember? (call : Node) : Option String :=
  match (call.child? .callee).bind literalName? with
  | none => none
  | some callee =>
    if Text.sameLetters callee "method_exists" then call.callArguments[1]?.bind literalString?
    else none

/-- The names of methods are the same, letter by letter. -/
structure KeepsMethods (n n' : Node) : Prop where
  called : n.kind = .methodCall ∨ n.kind = .nullsafeCall ∨ n.kind = .staticCall →
    Candidate.methodName? n = Candidate.methodName? n'
  tested : n.kind = .functionCall → n.testedMember? = n'.testedMember?

theorem KeepsMethods.refl (n : Node) : KeepsMethods n n :=
  ⟨fun _ => rfl, fun _ => rfl⟩

theorem KeepsMethods.of_not_isCall {n n' : Node} (h : n.isCall = false) : KeepsMethods n n' := by
  simp only [Node.isCall, Bool.or_eq_false_iff, beq_eq_false_iff_ne] at h
  obtain ⟨⟨⟨hfunction, hmethod⟩, hnullsafe⟩, hstatic⟩ := h
  constructor
  · rintro (hkind | hkind | hkind)
    · exact absurd hkind hmethod
    · exact absurd hkind hnullsafe
    · exact absurd hkind hstatic
  · exact fun hkind => absurd hkind hfunction

inductive Subject.Related (S : Spelling) (R : Nat → Nat → Prop) : Subject → Subject → Prop
  | ofVariable {id id' : Nat} (name : String) (h : R id id') :
    Related S R (.variable ⟨id, name⟩) (.variable ⟨id', name⟩)
  | ofClass {name name' : String} (h : S.norm name = S.norm name') :
    Related S R (.class name) (.class name')

inductive Guard.Related (S : Spelling) (R : Nat → Nat → Prop) : Guard → Guard → Prop
  | function {name name' : String} (h : S.norm name = S.norm name') :
    Related S R (.function name) (.function name')
  | method {subject subject' : Subject} (member : String) (h : subject.Related S R subject') :
    Related S R (.method subject member) (.method subject' member)

theorem Subject.Related.mono {S : Spelling} {R R' : Nat → Nat → Prop}
    (hR : ∀ a b, R a b → R' a b) {s s' : Subject} (h : s.Related S R s') : s.Related S R' s' := by
  cases h with
  | ofVariable name h => exact .ofVariable name (hR _ _ h)
  | ofClass h => exact .ofClass h

theorem Guard.Related.mono {S : Spelling} {R R' : Nat → Nat → Prop}
    (hR : ∀ a b, R a b → R' a b) {g g' : Guard} (h : g.Related S R g') : g.Related S R' g' := by
  cases h with
  | function h => exact .function h
  | method member h => exact .method member (h.mono hR)

section Guards

variable {S : Spelling} {R : Nat → Nat → Prop} {s s' : Scope} {n n' : Node}

theorem Near.subject? (h : Near S n n') (hs : s.Agree S s') (hid : R s.id s'.id) :
    Option.Rel (Subject.Related S R) (Guard.subject? s n) (Guard.subject? s' n') := by
  have hobject := h.unparenthesize.head
  unfold Guard.subject?
  simp only [hobject.variableName?]
  split
  · exact .some (.ofVariable _ hid)
  · rcases rel_cases (rel_of_map_eq hobject.literalString?) with
      ⟨hnone, hnone'⟩ | ⟨text, text', htext, htext', hnorm⟩
    · rw [hnone, hnone']
      exact rel_map (rel_of_map_eq (hs.bind_resolve? h.unparenthesize.classConstant?))
        fun _ _ => .ofClass
    · rw [htext, htext']
      exact rel_map (rel_of_map_eq (S.lookupName?_eq hnorm)) fun _ _ => .ofClass

/-- The guard that a test for a function with these arguments is. -/
def Guard.ofFunctionTest? : List Node → Option Guard
  | [] => none
  | tested :: _ => (tested.literalString?.bind Literal.lookupName?).map .function

/-- The guard that a test for a method with these arguments is. -/
def Guard.ofMethodTest? (scope : Scope) : List Node → Option Guard
  | object :: tested :: _ =>
    match tested.literalString? with
    | none => none
    | some member => (subject? scope object).map (.method · member)
  | _ => none

theorem Guard.ofCall?_of_callee {callee : String} (hkind : n.kind = .functionCall)
    (hplain : n.isFirstClassCallable = false)
    (hcallee : (n.child? .callee).bind Node.literalName? = some callee) :
    ofCall? s n = if Text.sameLetters callee "function_exists" then ofFunctionTest? n.callArguments
      else if Text.sameLetters callee "method_exists" then ofMethodTest? s n.callArguments
      else none := by
  unfold ofCall?
  rw [hkind, hplain, hcallee]
  rfl

theorem Guard.ofFunctionTest?_related {args args' : List Node}
    (h : List.Forall₂ (Near S) args args') :
    Option.Rel (Guard.Related S R) (ofFunctionTest? args) (ofFunctionTest? args') := by
  cases h with
  | nil => exact .none
  | cons htested _ =>
    have hname := S.bind_congr S.lookupName?_norm htested.head.literalString?
    exact rel_map (rel_of_map_eq hname) fun _ _ => .function

theorem Guard.ofMethodTest?_related {args args' : List Node}
    (h : List.Forall₂ (Near S) args args')
    (hmember : args[1]?.bind Node.literalString? = args'[1]?.bind Node.literalString?)
    (hs : s.Agree S s') (hid : R s.id s'.id) :
    Option.Rel (Guard.Related S R) (ofMethodTest? s args) (ofMethodTest? s' args') := by
  rcases h with _ | ⟨hobject, _ | ⟨-, -⟩⟩
  · exact .none
  · exact .none
  · simp only [List.getElem?_cons_succ, List.getElem?_cons_zero, Option.bind_some] at hmember
    simp only [ofMethodTest?, hmember]
    split
    · exact .none
    · exact rel_map (hobject.subject? hs hid) fun _ _ => .method _

theorem Php.Node.testedMember?_eq {callee : String}
    (hcallee : (n.child? .callee).bind literalName? = some callee)
    (h : Text.sameLetters callee "method_exists" = true) :
    n.testedMember? = n.callArguments[1]?.bind literalString? := by
  simp [testedMember?, hcallee, h]

/-- Corresponding calls are corresponding guards. -/
theorem Near.guard? (h : Near S n n') (hkeeps : KeepsMethods n n') (hs : s.Agree S s')
    (hid : R s.id s'.id) :
    Option.Rel (Guard.Related S R) (Guard.ofCall? s n) (Guard.ofCall? s' n') := by
  by_cases hkind : n.kind = .functionCall
  swap
  · rw [Guard.ofCall?_of_ne hkind, Guard.ofCall?_of_ne (by rw [h.head.kind]; exact hkind)]
    exact .none
  have hkind' : n'.kind = .functionCall := h.head.kind.trans hkind
  cases hplain : n'.isFirstClassCallable with
  | true =>
    rw [Guard.ofCall?, Guard.ofCall?, h.isFirstClassCallable_eq, hplain, hkind, hkind']
    exact .none
  | false =>
    have hcallee := rel_bind_map (k := S.norm) (h.child? .callee)
      fun _ _ hc => hc.2.head.literalName?
    rcases rel_cases (rel_of_map_eq hcallee) with ⟨hnone, hnone'⟩ | ⟨a, a', ha, ha', hnorm⟩
    · rw [Guard.ofCall?, Guard.ofCall?, h.isFirstClassCallable_eq, hplain, hkind, hkind', hnone,
        hnone']
      exact .none
    · rw [Guard.ofCall?_of_callee hkind (h.isFirstClassCallable_eq.trans hplain) ha,
        Guard.ofCall?_of_callee hkind' hplain ha']
      have hletters (word : String) : Text.sameLetters a word = Text.sameLetters a' word :=
        S.sameLetters_congr hnorm rfl
      rw [hletters, hletters]
      split
      · exact Guard.ofFunctionTest?_related h.callArguments
      · split
        · rename_i htests
          refine Guard.ofMethodTest?_related h.callArguments ?_ hs hid
          rw [← Node.testedMember?_eq ha (by rw [hletters, htests]),
            ← Node.testedMember?_eq ha' htests]
          exact hkeeps.tested hkind
        · exact .none

end Guards

namespace Walker

variable {S : Spelling} {R : Nat → Nat → Prop} {w w' : Walker} {n n' : Node}

theorem boundName_eq (h : Near S n n') :
    (n.child? .name).bind Node.variableName? = (n'.child? .name).bind Node.variableName? :=
  rel_bind_eq (h.child? .name) fun _ _ hrel => hrel.2.head.variableName?

theorem declaredType (h : Near S n n') {s s' : Scope} (hs : s.Agree S s') :
    Option.Rel (fun t t' => S.SameNames (Receiver.ofType s t) (Receiver.ofType s' t'))
      (n.child? .type) (n'.child? .type) :=
  rel_imp (h.child? .type) fun _ _ hrel => hrel.2.ofType hrel.1 hs

theorem bindParameter_agree {s s' : Scope} (hs : s.Agree S s') (h : Near S n n') :
    (bindParameter s n).Agree S (bindParameter s' n') := by
  unfold bindParameter
  rw [h.head.kind, boundName_eq h]
  split
  · split
    · exact hs
    · rcases rel_cases (declaredType h hs) with ⟨hnone, hnone'⟩ | ⟨t, t', ht, ht', hrel⟩
      · rw [hnone, hnone']
        exact hs.assign _ (.of_map_eq rfl)
      · rw [ht, ht']
        exact hs.assign _ hrel
  · exact hs

theorem bindParameters_agree {s s' : Scope} (hs : s.Agree S s') (h : Near S n n') :
    (bindParameters n s).Agree S (bindParameters n' s') := by
  unfold bindParameters
  rcases rel_cases (h.child? .parameters) with
    ⟨hnone, hnone'⟩ | ⟨c, c', hc, hc', hrole, hrel⟩
  · rw [hnone, hnone']
    exact hs
  · rw [hc, hc']
    have hparameters := hrel.namedChildren fun howner => howner.2.2 hrole
    exact List.rel_foldl (P := Scope.Agree S) (R := Near S)
      (fun _ _ hs _ _ h => bindParameter_agree hs h) hs hparameters

theorem captured?_eq (h : Near S n n') : captured? n = captured? n' := by
  unfold captured?
  rw [h.head.kind, h.head.variableName?]
  split
  · rename_i hkind
    have hkind : n.kind = .byReference := by simpa using hkind
    have hchildren := h.namedChildren (Near.not_isOwner_of_kind (by rw [hkind]; rfl))
    exact rel_bind_eq (rel_head? hchildren) fun _ _ hrel => hrel.head.variableName?
  · rfl

theorem bindCaptures_agree {outer outer' s s' : Scope} (houter : outer.Agree S outer')
    (hs : s.Agree S s') (h : List.Forall₂ (Near S) n.children n'.children) :
    (bindCaptures n outer s).Agree S (bindCaptures n' outer' s') := by
  unfold bindCaptures
  rcases rel_cases (Near.childOfKind?_of_children h .captures) with
    ⟨hnone, hnone'⟩ | ⟨c, c', hc, hc', hrel⟩
  · rw [hnone, hnone']
    exact hs
  · rw [hc, hc']
    have hkind : c.kind = .captures := by simpa using List.find?_some hc
    have hnames : List.Forall₂ Eq (c.namedChildren.filterMap captured?)
        (c'.namedChildren.filterMap captured?) := by
      refine List.rel_filterMap (fun d d' hd => ?_)
        (hrel.namedChildren (Near.not_isOwner_of_kind (by rw [hkind]; rfl)))
      rw [captured?_eq hd]
      cases captured? d' with
      | none => exact .none
      | some name => exact .some rfl
    refine List.rel_foldl (fun s s' hs name name' hname => ?_) hs hnames
    rw [← hname]
    exact hs.assign _ (houter.classesOf _)

/-- Walkers that know the same. Their scopes are told apart by the same ids, up to the pairing. -/
structure Related (S : Spelling) (R : Nat → Nat → Prop) (w w' : Walker) : Prop where
  guards : List.Forall₂ (List.Forall₂ (Guard.Related S R)) w.guards.frames w'.guards.frames
  scope : w.scope.Agree S w'.scope
  id : R w.scope.id w'.scope.id
  name : w.around.name.map S.norm = w'.around.name.map S.norm
  parent : w.around.parent.map S.norm = w'.around.parent.map S.norm
  inTest : w'.inTest = w.inTest
  known : ∀ a b, R a b → a < w.nextScope ∧ b < w'.nextScope
  paired : ∀ a b a' b', R a b → R a' b' → (a = a' ↔ b = b')

namespace Related

theorem register (h : Related S R w w') {g g' : Guard} (hg : g.Related S R g') :
    Related S R { w with guards := w.guards.register g }
      { w' with guards := w'.guards.register g' } := by
  refine ⟨?_, h.scope, h.id, h.name, h.parent, h.inTest, h.known, h.paired⟩
  have hguards := h.guards
  simp only [Guards.register]
  generalize w.guards = gs at hguards
  generalize w'.guards = gs' at hguards
  obtain ⟨frames⟩ := gs
  obtain ⟨frames'⟩ := gs'
  rcases hguards with _ | ⟨hframe, houter⟩
  · exact .nil
  · exact .cons (List.rel_append hframe (.cons hg .nil)) houter

theorem observe (h : Related S R w w') (hn : Near S n n') (hkeeps : KeepsMethods n n') :
    Related S R (w.observe n) (w'.observe n') := by
  unfold Walker.observe
  by_cases htest : w.inTest = true
  · rw [if_pos htest, if_pos (h.inTest.trans htest)]
    rcases rel_cases (hn.guard? hkeeps h.scope h.id) with
      ⟨hnone, hnone'⟩ | ⟨g, g', hg, hg', hrel⟩
    · rw [hnone, hnone']
      exact h
    · rw [hg, hg']
      exact h.register hrel
  · rw [if_neg htest, if_neg (by rw [h.inTest]; exact htest)]
    exact h

theorem assign (h : Related S R w w') (name : String) {cs cs' : List String}
    (hcs : S.SameNames cs cs') :
    Related S R { w with scope := w.scope.assign name cs }
      { w' with scope := w'.scope.assign name cs' } :=
  ⟨h.guards, h.scope.assign name hcs, h.id, h.name, h.parent, h.inTest, h.known, h.paired⟩

theorem recordAssignment (h : Related S R w w') (hn : Near S n n') :
    Related S R (w.recordAssignment n) (w'.recordAssignment n') := by
  unfold Walker.recordAssignment
  rcases rel_cases (hn.child? .left) with
    ⟨hnone, hnone'⟩ | ⟨l, l', hl, hl', -, hleft⟩
  · rw [hnone, hnone']
    exact h
  · rcases rel_cases (hn.child? .right) with
      ⟨hnone, hnone'⟩ | ⟨r, r', hr, hr', -, hright⟩
    · rw [hl, hl', hnone, hnone']
      exact h
    · simp only [hl, hl', hr, hr', hleft.head.variableName?]
      split
      · exact h
      · split
        · exact h
        · exact h.assign _ (hright.classes h.scope)

theorem recordCatch (h : Related S R w w') (hn : Near S n n') :
    Related S R (w.recordCatch n) (w'.recordCatch n') := by
  unfold Walker.recordCatch
  rw [boundName_eq hn]
  split
  · exact h
  · rcases rel_cases (declaredType hn h.scope) with ⟨hnone, hnone'⟩ | ⟨t, t', ht, ht', hrel⟩
    · rw [hnone, hnone']
      exact h.assign _ (.of_map_eq rfl)
    · rw [ht, ht']
      exact h.assign _ hrel

end Related

end Walker

end Availability
