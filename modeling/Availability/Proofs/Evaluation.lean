import Availability.Proofs.Simulation

/-!
# What a policy says about corresponding visits

Corresponding calls may call the same, the same guards cover them, and so a policy says the same
about both, if its symbol table finds names that are spelled the same in the same place.
-/
namespace Availability

open Php

/-- The same variable, in scopes that are paired. -/
def Variable.Related (R : Nat → Nat → Prop) (v v' : Variable) : Prop :=
  R v.scope v'.scope ∧ v.name = v'.name

inductive Candidate.Related (S : Spelling) (R : Nat → Nat → Prop) : Candidate → Candidate → Prop
  | function {name name' : String} (h : S.norm name = S.norm name') :
    Related S R (.function name) (.function name')
  | method (name : String) {receiver receiver' : Option Variable}
      {classes classes' keys keys' : List String}
      (hreceiver : Option.Rel (Variable.Related R) receiver receiver')
      (hclasses : S.SameNames classes classes')
      (hkeys : List.Forall₂ (fun a b => S.norm a = S.norm b) keys keys') :
    Related S R (.method name receiver classes keys) (.method name receiver' classes' keys')

variable {S : Spelling} {R : Nat → Nat → Prop} {s s' : Scope} {n n' : Node} {w w' : Walker}

theorem Candidate.ofMethod?_related (known : Classes) (name : String)
    {receiver receiver' : Option Variable} {classes classes' : List String}
    (hreceiver : Option.Rel (Variable.Related R) receiver receiver')
    (hclasses : S.SameNames classes classes') :
    Option.Rel (Candidate.Related S R) (ofMethod? known name receiver classes)
      (ofMethod? known name receiver' classes') := by
  unfold ofMethod?
  rw [hclasses.isEmpty_eq]
  split
  · exact .none
  · refine .some (.method name hreceiver hclasses ?_)
    have hprobed := forall₂_of_map_eq (hclasses.probeOrder known)
    refine List.rel_map (fun a b hab => ?_) hprobed
    exact S.methodKey_eq hab name

theorem Near.receiver (h : Near S n n') (hs : s.Agree S s') (hid : R s.id s'.id) :
    Option.Rel (fun r r' => Option.Rel (Variable.Related R)
        (r.unparenthesize.variableName?.map s.variableNamed)
        (r'.unparenthesize.variableName?.map s'.variableNamed) ∧
        S.SameNames (Receiver.classes s r.unparenthesize) (Receiver.classes s' r'.unparenthesize))
      (n.child? .receiver) (n'.child? .receiver) := by
  refine rel_imp (h.child? .receiver) fun r r' hrel => ⟨?_, hrel.2.unparenthesize.classes hs⟩
  rw [hrel.2.unparenthesize.head.variableName?]
  cases r'.unparenthesize.variableName? with
  | none => exact .none
  | some name => exact .some ⟨hid, rfl⟩

/-- What the call of a method of an object may call. -/
def Candidate.ofObject? (known : Classes) (scope : Scope) (call : Node) : Option Candidate :=
  match methodName? call, call.child? .receiver with
  | some name, some receiver =>
    ofMethod? known name (receiver.unparenthesize.variableName?.map scope.variableNamed)
      (Receiver.classes scope receiver.unparenthesize)
  | _, _ => none

theorem Near.ofObject? (h : Near S n n')
    (hname : Candidate.methodName? n = Candidate.methodName? n') (known : Classes)
    (hs : s.Agree S s') (hid : R s.id s'.id) :
    Option.Rel (Candidate.Related S R) (Candidate.ofObject? known s n)
      (Candidate.ofObject? known s' n') := by
  unfold Candidate.ofObject?
  rw [hname]
  cases Candidate.methodName? n' with
  | none => exact .none
  | some name =>
    rcases rel_cases (h.receiver hs hid) with
      ⟨hnone, hnone'⟩ | ⟨r, r', hr, hr', hvariable, hclasses⟩
    · rw [hnone, hnone']
      exact .none
    · rw [hr, hr']
      exact Candidate.ofMethod?_related known name hvariable hclasses

/-- Corresponding calls may call the same. -/
theorem Near.candidate? (h : Near S n n') (hmethods : KeepsMethods n n') (known : Classes)
    (hs : s.Agree S s') (hid : R s.id s'.id) :
    Option.Rel (Candidate.Related S R) (Candidate.ofCall? known s n)
      (Candidate.ofCall? known s' n') := by
  unfold Candidate.ofCall?
  rw [h.head.kind]
  split
  · have hcallee := rel_bind_map (k := S.norm) (h.child? .callee)
      fun _ _ hc => hc.2.head.literalName?
    exact rel_map (rel_of_map_eq hcallee) fun _ _ => .function
  · exact h.ofObject? (hmethods.called (.inl ‹_›)) known hs hid
  · exact h.ofObject? (hmethods.called (.inr (.inl ‹_›))) known hs hid
  · rw [hmethods.called (.inr (.inr ‹_›))]
    cases Candidate.methodName? n' with
    | none => exact .none
    | some name =>
      have hscope := rel_bind_map (k := S.norm) (h.child? .scope)
        fun _ _ hc => hc.2.head.named? hs
      rcases rel_cases (rel_of_map_eq hscope) with ⟨hnone, hnone'⟩ | ⟨c, c', hc, hc', hrel⟩
      · rw [hnone, hnone']
        exact .none
      · rw [hc, hc']
        exact Candidate.ofMethod?_related known name .none (.of_map_eq (by simp [hrel]))
  · exact .none

theorem coversFunction_eq (h : w.Related S R w') {name name' : String}
    (hname : S.norm name = S.norm name') :
    w.guards.coversFunction name = w'.guards.coversFunction name' := by
  refine rel_any (List.rel_flatten h.guards) fun g g' hg => ?_
  cases hg with
  | function htested => exact S.sameLetters_congr htested hname
  | method => rfl

theorem receiver_beq (h : w.Related S R w') {receiver receiver' : Option Variable}
    (hreceiver : Option.Rel (Variable.Related R) receiver receiver') {id id' : Nat}
    (hid : R id id') {name : String} :
    (receiver == some ⟨id, name⟩) = (receiver' == some ⟨id', name⟩) := by
  cases hreceiver with
  | none => rfl
  | @some v v' hv =>
    obtain ⟨scope, name⟩ := v
    obtain ⟨scope', name'⟩ := v'
    obtain ⟨hscope, rfl⟩ : R scope scope' ∧ name = name' := hv
    have hpaired := h.paired _ _ _ _ hscope hid
    rw [Bool.eq_iff_iff]
    simp [hpaired]

theorem coversMethod_eq (h : w.Related S R w') {receiver receiver' : Option Variable}
    {classes classes' : List String}
    (hreceiver : Option.Rel (Variable.Related R) receiver receiver')
    (hclasses : S.SameNames classes classes') (name : String) :
    w.guards.coversMethod receiver classes name =
      w'.guards.coversMethod receiver' classes' name := by
  refine rel_any (List.rel_flatten h.guards) fun g g' hg => ?_
  cases hg with
  | function => rfl
  | method member hsubject =>
    cases hsubject with
    | ofVariable tested hid =>
      dsimp only
      rw [receiver_beq h hreceiver hid]
    | ofClass htested =>
      dsimp only
      rw [hclasses.any_eq htested]

namespace Policy

variable {p : Policy}

theorem evaluate_related (hfind : ∀ a b, S.norm a = S.norm b → p.table.find? a = p.table.find? b)
    (h : w.Related S R w') {c c' : Candidate} (hc : c.Related S R c') :
    p.evaluate w.guards c = p.evaluate w'.guards c' := by
  cases hc with
  | function hname => simp only [evaluate, hfind _ _ hname, coversFunction_eq h hname]
  | @method name receiver receiver' classes classes' keys keys' hreceiver hclasses hkeys =>
    have hfound : keys.findSome? p.table.find? = keys'.findSome? p.table.find? := by
      have hmapped := rel_findSome? (k := fun entry => entry) hkeys fun a b hab =>
        congrArg (Option.map fun entry => entry) (hfind a b hab)
      simpa using hmapped
    simp only [evaluate, hfound, coversMethod_eq h hreceiver hclasses]

theorem check_related (hfind : ∀ a b, S.norm a = S.norm b → p.table.find? a = p.table.find? b)
    {v v' : Visit} (h : v.Related S v') : p.check v = p.check v' := by
  obtain ⟨R, hwalker⟩ := h.walker
  unfold check
  rcases rel_cases (h.node.candidate? h.methods p.classes hwalker.scope hwalker.id) with
    ⟨hnone, hnone'⟩ | ⟨c, c', hc, hc', hrel⟩
  · rw [hnone, hnone']
    rfl
  · rw [hc, hc']
    exact evaluate_related hfind hwalker hrel

/-- What a policy reports of a visit. -/
def report (p : Policy) (file : String) (v : Visit) : Option Diagnostic :=
  (p.check v).map fun f => ⟨f.issue, f.message, file, v.node.line, f.symbol, f.since⟩

theorem diagnose_eq (p : Policy) (file : String) (tree : Node) :
    p.diagnose file tree = (visits tree).filterMap (p.report file) := rfl

/-- The same is reported of corresponding visits. -/
theorem filterMap_report_related
    (hfind : ∀ a b, S.norm a = S.norm b → p.table.find? a = p.table.find? b) (file : String)
    {vs vs' : List Visit} (h : List.Forall₂ (Visit.Related S) vs vs') :
    vs.filterMap (p.report file) = vs'.filterMap (p.report file) := by
  refine rel_filterMap_eq h fun v v' hv => ?_
  unfold report
  rw [check_related hfind hv, hv.node.head.line]

end Policy

end Availability
