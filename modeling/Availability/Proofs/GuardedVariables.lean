import Availability.Php.Program
import Availability.Proofs.Bindings
import Availability.Proofs.GuardScope
import Availability.Proofs.Related
import Availability.Proofs.ScopeIdentity

/-!
# Which variables a test protects

A test of a variable for a method protects calls of that method of that variable. To the walk a
variable is a name in a scope, and an arrow function stays in the scope around it. So what a test
protects has the name that is tested, and the same function around it. It is another variable only
as the parameter of an arrow function that stands inside of the conditional and not around the test.
-/
namespace Availability

open Php

/-- Whether a guard asks about a variable. -/
def Guard.isOfVariable : Guard → Bool
  | .method (.variable _) _ => true
  | _ => false

namespace Guards

variable {g : Guards} {receiver : Option Variable} {classes : List String} {name : String}

/-- All guards but those that ask about a variable. -/
def withoutVariables (g : Guards) : Guards :=
  ⟨g.frames.map fun frame => frame.filter fun guard => !guard.isOfVariable⟩

theorem active_withoutVariables :
    g.withoutVariables.active = g.active.filter fun guard => !guard.isOfVariable :=
  List.filter_flatten.symm

theorem coversFunction_withoutVariables :
    g.withoutVariables.coversFunction name = g.coversFunction name := by
  unfold coversFunction
  rw [active_withoutVariables, List.any_filter]
  congr 1
  funext guard
  cases guard with
  | function tested => rfl
  | method subject member => exact Bool.and_false _

theorem coversMethod_iff :
    g.coversMethod receiver classes name = true ↔
      g.withoutVariables.coversMethod receiver classes name = true ∨
        ∃ v, receiver = some v ∧ .method (.variable v) name ∈ g.active := by
  unfold coversMethod
  rw [active_withoutVariables, List.any_filter]
  simp only [List.any_eq_true]
  constructor
  · rintro ⟨guard, hguard, hcovers⟩
    match guard with
    | .function _ => cases hcovers
    | .method (.class tested) member => exact .inl ⟨_, hguard, hcovers⟩
    | .method (.variable v) member =>
      obtain ⟨rfl, hreceiver⟩ : member = name ∧ receiver = some v := by simpa using hcovers
      exact .inr ⟨v, hreceiver, hguard⟩
  · rintro (⟨guard, hguard, hcovers⟩ | ⟨v, rfl, hguard⟩)
    · exact ⟨guard, hguard, ((Bool.and_eq_true _ _).mp hcovers).2⟩
    · exact ⟨_, hguard, by simp⟩

end Guards

namespace Php.Node

/-- A call that asks whether the variable `x` has the method `m`. -/
structure AsksFor (n : Node) (x m : String) : Prop where
  kind : n.kind = .functionCall
  called : n.isFirstClassCallable = false
  callee : ∃ name, (n.child? .callee).bind literalName? = some name ∧
    Text.sameLetters name "method_exists" = true
  arguments : ∃ object tested rest, n.callArguments = object :: tested :: rest ∧
    object.unparenthesize.variableName? = some x ∧ tested.literalString? = some m

/-- A call of the method `m` of the variable `x`. -/
structure CallsOn (n : Node) (x m : String) : Prop where
  kind : n.kind = .methodCall ∨ n.kind = .nullsafeCall
  name : Candidate.methodName? n = some m
  receiver : ∃ object, n.child? .receiver = some object ∧
    object.unparenthesize.variableName? = some x

/-- Whether a function has a parameter that is the variable `x`. -/
def declares (n : Node) (x : String) : Bool :=
  (n.child? .parameters).any fun list =>
    list.namedChildren.any fun parameter => (parameter.child? .name).bind variableName? == some x

theorem CallsOn.isCall {n : Node} {x m : String} (h : n.CallsOn x m) : n.isCall = true := by
  rcases h.kind with hkind | hkind <;> simp [Node.isCall, hkind]

end Php.Node

section Calls

variable {s : Scope} {n : Node} {m x : String} {v : Variable}

namespace Guard

theorem variableName?_of_subject? (h : subject? s n = some (.variable v)) :
    ∃ x, n.unparenthesize.variableName? = some x ∧ v = s.variableNamed x := by
  unfold subject? at h
  dsimp only at h
  split at h
  · rename_i x hx
    obtain rfl : s.variableNamed x = v := by simpa using h
    exact ⟨x, hx, rfl⟩
  · split at h <;> obtain ⟨name, -, hname⟩ := Option.map_eq_some_iff.mp h <;> cases hname

theorem function_of_ofFunctionTest? {args : List Node} {guard : Guard}
    (h : ofFunctionTest? args = some guard) : ∃ name, guard = .function name := by
  unfold ofFunctionTest? at h
  split at h
  · cases h
  · obtain ⟨name, -, rfl⟩ := Option.map_eq_some_iff.mp h
    exact ⟨name, rfl⟩

theorem arguments_of_ofMethodTest? {args : List Node}
    (h : ofMethodTest? s args = some (.method (.variable v) m)) :
    ∃ x, v = s.variableNamed x ∧ ∃ object tested rest, args = object :: tested :: rest ∧
      object.unparenthesize.variableName? = some x ∧ tested.literalString? = some m := by
  unfold ofMethodTest? at h
  split at h
  · rename_i object tested rest
    split at h
    · cases h
    · rename_i member hmember
      obtain ⟨subject, hsubject, heq⟩ := Option.map_eq_some_iff.mp h
      obtain ⟨rfl, rfl⟩ := Guard.method.inj heq
      obtain ⟨x, hx, hv⟩ := variableName?_of_subject? hsubject
      exact ⟨x, hv, object, tested, rest, rfl, hx, hmember⟩
  · cases h

theorem asksFor_of_ofCall? (h : ofCall? s n = some (.method (.variable v) m)) :
    ∃ x, n.AsksFor x m ∧ v = s.variableNamed x := by
  have hkind : n.kind = .functionCall := by
    by_contra hne
    rw [ofCall?_of_ne hne] at h
    cases h
  have hcalled : n.isFirstClassCallable = false := by
    by_contra hne
    simp [ofCall?, hne] at h
  cases hcallee : (n.child? .callee).bind Node.literalName? with
  | none => simp [ofCall?, hcallee] at h
  | some name =>
    rw [ofCall?_of_callee hkind hcalled hcallee] at h
    split at h
    · obtain ⟨_, hfunction⟩ := function_of_ofFunctionTest? h
      cases hfunction
    · split at h
      · rename_i hname
        obtain ⟨x, hv, harguments⟩ := arguments_of_ofMethodTest? h
        exact ⟨x, ⟨hkind, hcalled, ⟨name, hcallee, hname⟩, harguments⟩, hv⟩
      · cases h

end Guard

namespace Candidate

variable {known : Classes} {candidate : Candidate}

theorem ofCall?_of_method (hkind : n.kind = .methodCall ∨ n.kind = .nullsafeCall) :
    ofCall? known s n = (methodName? n).bind fun name => (n.child? .receiver).bind fun receiver =>
      ofMethod? known name (receiver.unparenthesize.variableName?.map s.variableNamed)
        (Receiver.classes s receiver.unparenthesize) := by
  unfold ofCall?
  rcases hkind with hkind | hkind <;> rw [hkind] <;>
    cases methodName? n <;> cases n.child? .receiver <;> rfl

theorem receiver_of_callsOn (hn : n.CallsOn x m) (h : ofCall? known s n = some candidate) :
    ∃ classes keys, candidate = .method m (some (s.variableNamed x)) classes keys := by
  obtain ⟨object, hobject, hx⟩ := hn.receiver
  rw [ofCall?_of_method hn.kind, hn.name, Option.bind_some, hobject, Option.bind_some, hx] at h
  exact ⟨_, _, eq_of_ofMethod? h⟩

theorem callsOn_of_receiver {classes keys : List String}
    (h : ofCall? known s n = some (.method m (some v) classes keys)) :
    ∃ x, n.CallsOn x m ∧ v = s.variableNamed x := by
  by_cases hkind : n.kind = .methodCall ∨ n.kind = .nullsafeCall
  · rw [ofCall?_of_method hkind] at h
    obtain ⟨name, hname, h⟩ := Option.bind_eq_some_iff.mp h
    obtain ⟨object, hobject, h⟩ := Option.bind_eq_some_iff.mp h
    obtain ⟨rfl, hv, -⟩ := Candidate.method.inj (eq_of_ofMethod? h)
    obtain ⟨x, hx, rfl⟩ := Option.map_eq_some_iff.mp hv.symm
    exact ⟨x, ⟨hkind, hname, object, hobject, hx⟩, rfl⟩
  · unfold ofCall? at h
    split at h
    · obtain ⟨_, -, heq⟩ := Option.map_eq_some_iff.mp h
      cases heq
    · exact absurd (.inl ‹_›) hkind
    · exact absurd (.inr ‹_›) hkind
    · split at h
      · cases eq_of_ofMethod? h
      · cases h
    · cases h

end Candidate

end Calls

/-- A visited node as it would be if no variable had been tested. -/
def Visit.withoutVariableTests (v : Visit) : Visit :=
  { v with walker := { v.walker with guards := v.walker.guards.withoutVariables } }

namespace Policy

variable {p : Policy} {guards : Guards} {candidate : Candidate} {f : Finding}

theorem evaluate_eq_none_iff (hf : p.evaluate guards.withoutVariables candidate = some f) :
    p.evaluate guards candidate = none ↔ ∃ m v classes keys,
      candidate = .method m (some v) classes keys ∧ .method (.variable v) m ∈ guards.active := by
  cases candidate with
  | function name =>
    have heq : p.evaluate guards (.function name) = some f := by
      rw [← hf]
      simp only [evaluate, Guards.coversFunction_withoutVariables]
    simp [heq]
  | method name receiver classes keys =>
    unfold evaluate at hf ⊢
    cases hfound : keys.findSome? p.table.find? with
    | none => simp [hfound] at hf
    | some found =>
      simp only [hfound] at hf ⊢
      split at hf
      · cases hf
      · rename_i hnot
        obtain ⟨hnewer, hfree⟩ := not_or.mp hnot
        have hcovers : (if found.2.since ≤ p.minimum ∨ guards.coversMethod receiver classes name
            then none else some (p.finding .methodNotAvailable found.1 found.2.since)) = none ↔
            guards.coversMethod receiver classes name = true := by
          simp [hnewer]
        rw [hcovers, Guards.coversMethod_iff, or_iff_right hfree]
        constructor
        · rintro ⟨v, rfl, hguard⟩
          exact ⟨name, v, classes, keys, rfl, hguard⟩
        · rintro ⟨_, v, _, _, heq, hguard⟩
          obtain ⟨rfl, rfl, -⟩ := Candidate.method.inj heq
          exact ⟨v, rfl, hguard⟩

/-- A call that is reported unless variables are tested is spared exactly if it is a call of a
method of a variable and a test for it is in effect. -/
theorem check_eq_none_iff {c : Visit} (hf : p.check c.withoutVariableTests = some f) :
    p.check c = none ↔ ∃ x m, c.node.CallsOn x m ∧
      .method (.variable (c.walker.scope.variableNamed x)) m ∈ c.walker.guards.active := by
  obtain ⟨candidate, hcandidate, hf⟩ := Option.bind_eq_some_iff.mp hf
  -- the tests have no part in what the call may call
  change Candidate.ofCall? p.classes c.walker.scope c.node = some candidate at hcandidate
  rw [check, hcandidate, Option.bind_some, evaluate_eq_none_iff hf]
  constructor
  · rintro ⟨m, v, classes, keys, rfl, hguard⟩
    obtain ⟨x, hx, rfl⟩ := Candidate.callsOn_of_receiver hcandidate
    exact ⟨x, m, hx, hguard⟩
  · rintro ⟨x, m, hx, hguard⟩
    obtain ⟨classes, keys, rfl⟩ := Candidate.receiver_of_callsOn hx hcandidate
    exact ⟨m, _, classes, keys, rfl, hguard⟩

end Policy

/-- The test in `g` of a variable for the method `m` is in effect at `c` for the variable `x`. -/
def Protects (tree : Node) (g c : Visit) (x m : String) : Prop :=
  ∃ q, Registers tree q g (.method (.variable (c.walker.scope.variableNamed x)) m) ∧
    Covers tree q c.path

/-- At `p` and at `q`, the name `x` stands for the same variable: they are in the same function, and
no arrow function around `q` only has a parameter of that name. -/
structure SameVariable (tree : Node) (x : String) (p q : Path) : Prop where
  function : tree.innermost? Kind.isFunction p = tree.innermost? Kind.isFunction q
  unshadowed : ∀ a ∈ tree.around Kind.isArrow q, a ∉ tree.around Kind.isArrow p →
    ∀ n, tree.at? a = some n → n.declares x = false

section Tests

variable {tree : Node} {before after : List Visit} {g c : Visit} {x m : String}

theorem mem_visits_of_split (h : visits tree = before ++ c :: after) (hg : g ∈ before ++ [c]) :
    g ∈ visits tree := by
  rw [h, List.append_cons]
  exact List.mem_append_left _ hg

theorem mem_active_iff (h : visits tree = before ++ c :: after) (hc : c.node.isCall = true) :
    .method (.variable (c.walker.scope.variableNamed x)) m ∈ c.walker.guards.active ↔
      ∃ g ∈ before ++ [c], Protects tree g c x m := by
  have hall := allActive_visits tree
  rw [h, allActive_append] at hall
  exact hall.2.1 hc _

theorem Protects.asksFor (h : Protects tree g c x m) :
    g.node.AsksFor x m ∧ c.walker.scope.id = g.walker.scope.id := by
  obtain ⟨q, ⟨hguard, -⟩, -⟩ := h
  obtain ⟨y, hy, heq⟩ := Guard.asksFor_of_ofCall? hguard
  obtain ⟨hid, rfl⟩ := Variable.mk.inj heq
  exact ⟨hy, hid⟩

/-- What is around the conditional is around all that it covers. So an arrow function around the
call and not around the test is inside of the conditional. -/
theorem Innermost.encloses_of_not_mem {is : Kind → Bool} {p q r a : Path}
    (hp : Innermost tree q p) (hr : Covers tree q r) (ha : a ∈ tree.around is r)
    (hnot : a ∉ tree.around is p) : Encloses q a := by
  obtain ⟨har, hkind⟩ := Node.mem_around_iff.mp ha
  have hout : ¬a <+: q := by
    intro haq
    refine hnot (Node.mem_around_iff.mpr ⟨⟨haq.trans hp.1.isPrefix, ?_⟩, hkind⟩)
    rintro rfl
    exact hp.1.not_isPrefix haq
  rcases List.prefix_or_prefix_of_prefix har.1 hr.isPrefix with haq | hqa
  · exact absurd haq hout
  · refine ⟨hqa, ?_⟩
    rintro rfl
    exact hout List.prefix_rfl

/-- A call that is reported unless variables are tested is spared exactly if a method of a variable
is called and a test of its name for the method is in effect. Such a test stands in the same
function as the call, and it is of another variable exactly if, inside of its conditional, an
arrow function around the call and not around the test has a parameter of that name. -/
theorem Policy.check_variable_tests {p : Policy} {f : Finding}
    (h : visits tree = before ++ c :: after) (hf : p.check c.withoutVariableTests = some f) :
    (p.check c = none ↔
      ∃ x m, c.node.CallsOn x m ∧ ∃ g ∈ before ++ [c], Protects tree g c x m) ∧
    ∀ x m, ∀ g ∈ before ++ [c], Protects tree g c x m →
      g.node.AsksFor x m ∧
      tree.innermost? Kind.isFunction g.path = tree.innermost? Kind.isFunction c.path ∧
      (¬SameVariable tree x g.path c.path ↔
        ∃ q a n, Innermost tree q g.path ∧ Encloses q a ∧ a ∈ tree.around Kind.isArrow c.path ∧
          a ∉ tree.around Kind.isArrow g.path ∧ tree.at? a = some n ∧ n.declares x = true) := by
  refine ⟨?_, fun x m g hg hprotects => ?_⟩
  · rw [check_eq_none_iff hf]
    refine exists_congr fun x => exists_congr fun m => and_congr_right fun hcall => ?_
    exact mem_active_iff h hcall.isCall
  · obtain ⟨hasks, hid⟩ := hprotects.asksFor
    obtain ⟨q, ⟨-, -, hinner⟩, hcovers⟩ := hprotects
    have hc : c ∈ before ++ [c] := List.mem_append_right _ (List.mem_singleton_self c)
    have hfunction := (id_eq_iff (mem_visits_of_split h hg) (mem_visits_of_split h hc)).mp hid.symm
    refine ⟨hasks, hfunction, ?_⟩
    constructor
    · intro hnot
      by_contra hnone
      refine hnot ⟨hfunction, fun a ha hag n hn => ?_⟩
      by_contra hdeclares
      exact hnone ⟨q, a, n, hinner, hinner.encloses_of_not_mem hcovers ha hag, ha, hag, hn,
        Bool.not_eq_false _ |>.mp hdeclares⟩
    · rintro ⟨_, a, n, -, -, ha, hag, hn, hdeclares⟩ hsame
      exact Bool.false_ne_true ((hsame.unshadowed a ha hag n hn).symm.trans hdeclares)

end Tests

/-- A call in an arrow function with some parameters, inside of a conditional that tests for it. -/
def callInArrow (parameters : String) : Node :=
  Php.parseBytes (Text.encode
    ("<?php function f(Q $q)\x7bif(method_exists($q,'a'))fn(" ++ parameters ++ ")=>$q->a();\x7d"))

def joinPolicy : Policy where
  table := { symbols := [("Q::a", ⟨⟨6, 1, 0⟩, none⟩)] }
  minimum := ⟨6, 0, 0⟩
  classes := {}

theorem Policy.check_variable_tests_callInArrow :
    ∃ before c after, visits (callInArrow "") = before ++ c :: after ∧
      (joinPolicy.check c.withoutVariableTests).isSome = true ∧ joinPolicy.check c = none ∧
      ∃ x m, c.node.CallsOn x m ∧ ∃ g ∈ before ++ [c], g.node.AsksFor x m ∧
        SameVariable (callInArrow "") x g.path c.path := by
  have hcall : ∃ c ∈ visits (callInArrow ""),
      (joinPolicy.check c.withoutVariableTests).isSome = true ∧ joinPolicy.check c = none ∧
      ∀ a ∈ (callInArrow "").around Kind.isArrow c.path, ∀ n ∈ (callInArrow "").at? a,
        ∀ list ∈ n.child? .parameters, list.namedChildren = [] := by
    decide +kernel
  obtain ⟨c, hc, hreported, hspared, harrows⟩ := hcall
  obtain ⟨before, after, hsplit⟩ := List.append_of_mem hc
  obtain ⟨f, hf⟩ := Option.isSome_iff_exists.mp hreported
  obtain ⟨htests, hvariables⟩ := Policy.check_variable_tests hsplit hf
  obtain ⟨x, m, hcalls, g, hg, hprotects⟩ := htests.mp hspared
  obtain ⟨hasks, -, hsame⟩ := hvariables x m g hg hprotects
  refine ⟨before, c, after, hsplit, hreported, hspared, x, m, hcalls, g, hg, hasks, ?_⟩
  by_contra hnot
  obtain ⟨-, a, n, -, -, ha, -, hn, hdeclares⟩ := hsame.mp hnot
  rw [Node.declares, Option.any_eq_true] at hdeclares
  obtain ⟨list, hlist, hparameter⟩ := hdeclares
  simp [harrows a ha n hn list hlist] at hparameter

/-- With a parameter of the same name the call is still spared, by the test of another variable. -/
theorem not_sameVariable_callInArrow :
    ∃ before c after, visits (callInArrow "Q $q") = before ++ c :: after ∧
      (joinPolicy.check c.withoutVariableTests).isSome = true ∧ joinPolicy.check c = none ∧
      ∃ g ∈ before ++ [c], Protects (callInArrow "Q $q") g c "q" "a" ∧
        ¬SameVariable (callInArrow "Q $q") "q" g.path c.path := by
  have hcall : ∃ c ∈ visits (callInArrow "Q $q"),
      (joinPolicy.check c.withoutVariableTests).isSome = true ∧ joinPolicy.check c = none ∧
      c.node.isCall = true ∧
      .method (.variable (c.walker.scope.variableNamed "q")) "a" ∈ c.walker.guards.active ∧
      ∃ a ∈ (callInArrow "Q $q").around Kind.isArrow c.path,
        ∃ n ∈ (callInArrow "Q $q").at? a, n.declares "q" = true := by
    decide +kernel
  have htests : ∀ g ∈ visits (callInArrow "Q $q"), g.node.kind = .functionCall →
      (callInArrow "Q $q").around Kind.isArrow g.path = [] := by
    decide +kernel
  obtain ⟨c, hc, hreported, hspared, hisCall, hactive, a, ha, n, hn, hdeclares⟩ := hcall
  obtain ⟨before, after, hsplit⟩ := List.append_of_mem hc
  obtain ⟨g, hg, hprotects⟩ := (mem_active_iff hsplit hisCall).mp hactive
  refine ⟨before, c, after, hsplit, hreported, hspared, g, hg, hprotects, fun hsame => ?_⟩
  have hnone := htests g (mem_visits_of_split hsplit hg) hprotects.asksFor.1.kind
  have hfalse := hsame.unshadowed a ha (by simp [hnone]) n hn
  exact Bool.false_ne_true (hfalse.symm.trans hdeclares)

end Availability
