import Availability.Proofs.DeclarationPlaces
import Availability.Proofs.Enclosure
import Availability.Proofs.Tour

/-!
# Which function and which class a scope stands for

The walk numbers scopes in the order in which it enters functions, and takes the class around it
along. By places: two nodes share an id exactly if the innermost function around them is the same,
and the class of a scope is the class of the innermost method around, unless a function that is
declared stands in between. The search for declarations has the same class at that method.
-/
namespace Availability

open Php

namespace Php.Kind

/-- Classes of all kinds, with a name or without. -/
def isClass (kind : Kind) : Bool :=
  kind == .classDeclaration || kind == .interfaceDeclaration || kind == .traitDeclaration ||
    kind == .enumDeclaration || kind == .anonymousClass

/-- Functions that are declared, so that they do not take over the scope around them. -/
def isDeclared (kind : Kind) : Bool :=
  kind == .function || kind == .method

theorem manner_eq_classLike {kind : Kind} : kind.manner = .classLike ↔ kind.isClass = true := by
  cases kind <;> decide

theorem not_isClass_of_isFunction {kind : Kind} (h : kind.isFunction = true) :
    ¬kind.isClass = true := by
  revert h
  cases kind <;> decide

theorem ne_of_not_isFunction {kind : Kind} (h : ¬kind.isFunction = true) :
    kind ≠ .method ∧ kind ≠ .function := by
  constructor <;> rintro rfl <;> exact h rfl

end Php.Kind

section Numbers

variable {path : Path} {n : Node} {places : List Nat} {w done : Walker} {next : Nat}
  {u v : Visit} {visits rest : List Visit}

/-- The number of functions among visited nodes. -/
def functionsIn (visits : List Visit) : Nat :=
  visits.countP (·.node.kind.isFunction)

/-- The next scope has an id that grows by one with each function. -/
def Numbered : Nat → List Visit → Prop
  | _, [] => True
  | next, v :: rest => v.walker.nextScope = next ∧ Numbered (next + functionsIn [v]) rest

theorem functionsIn_cons : functionsIn (v :: rest) = functionsIn [v] + functionsIn rest :=
  @List.countP_append _ _ [v] rest

theorem functionsIn_append :
    functionsIn (visits ++ rest) = functionsIn visits + functionsIn rest :=
  List.countP_append

theorem functionsIn_singleton :
    functionsIn [v] = if v.node.kind.isFunction = true then 1 else 0 :=
  List.countP_singleton

theorem numbered_append :
    Numbered next (visits ++ rest) ↔
      Numbered next visits ∧ Numbered (next + functionsIn visits) rest := by
  induction visits generalizing next with
  | nil => simp [Numbered, functionsIn]
  | cons v visits ih =>
    simp only [List.cons_append, Numbered, ih, @functionsIn_cons v visits, Nat.add_assoc, and_assoc]

theorem Numbered.le (h : Numbered next visits) (hv : v ∈ visits) : next ≤ v.walker.nextScope := by
  induction visits generalizing next with
  | nil => cases hv
  | cons u visits ih =>
    rcases List.mem_cons.mp hv with rfl | hv
    · exact Nat.le_of_eq h.1.symm
    · exact Nat.le_trans (Nat.le_add_right _ _) (ih h.2 hv)

/-- Functions that are given different ids. -/
def Apart (u v : Visit) : Prop :=
  u.node.kind.isFunction = true → v.node.kind.isFunction = true →
    u.walker.nextScope ≠ v.walker.nextScope

instance : Std.Symm Apart :=
  ⟨fun _ _ h hv hu => (h hu hv).symm⟩

theorem Numbered.pairwise (h : Numbered next visits) : visits.Pairwise Apart := by
  induction visits generalizing next with
  | nil => exact .nil
  | cons u visits ih =>
    refine List.pairwise_cons.mpr ⟨fun v hv hu _ => ?_, ih h.2⟩
    have hle := h.2.le hv
    rw [functionsIn_singleton, if_pos hu] at hle
    rw [h.1]
    exact Nat.ne_of_lt hle

theorem Numbered.eq_of_nextScope_eq (h : Numbered next visits) (hu : u ∈ visits) (hv : v ∈ visits)
    (hufunction : u.node.kind.isFunction = true) (hvfunction : v.node.kind.isFunction = true)
    (heq : u.walker.nextScope = v.walker.nextScope) : u = v := by
  by_contra hne
  exact h.pairwise.forall hu hv hne hufunction hvfunction heq

namespace Walker

/-- A walk counts the functions that it visits. -/
structure Counted (w : Walker) (run : Walker × List Visit) : Prop where
  numbered : Numbered w.nextScope run.2
  next : run.1.nextScope = w.nextScope + functionsIn run.2

theorem Tour.counted_of (h : Tour path n places w done visits)
    (hvisit : ∀ c ∈ n.children, ∀ (path : Path) (w : Walker), w.Counted (visit path c w)) :
    w.Counted (done, visits) := by
  induction h with
  | stop w => exact ⟨trivial, rfl⟩
  | turn guards inTest _ ih => exact ⟨ih.numbered, ih.next⟩
  | @child places w done visits c i hc _ ih =>
    have hchild := hvisit c (List.mem_of_getElem? hc) (path ++ [i]) w
    refine ⟨numbered_append.mpr ⟨hchild.numbered, hchild.next ▸ ih.numbered⟩, ?_⟩
    rw [ih.next, hchild.next, functionsIn_append, Nat.add_assoc]

theorem observe_nextScope : (w.observe n).nextScope = w.nextScope := by
  unfold observe
  split
  · split <;> rfl
  · rfl

theorem entered_nextScope :
    (w.entered n).nextScope = w.nextScope + functionsIn [⟨path, n, w.observe n⟩] := by
  simp only [functionsIn_singleton, ← Kind.manner_eq_function]
  unfold entered
  cases n.kind.manner with
  | handler => rcases w.recordCatch_eq n with heq | ⟨name, classes, heq⟩ <;> simp [heq]
  | conditional => simp [observe_nextScope]
  | assignment => simp [observe_nextScope]
  | plain => simp [observe_nextScope]
  | arrow => simp
  | function => simp
  | classLike => simp

theorem left_nextScope : (w.left n done).nextScope = done.nextScope := by
  unfold left
  split
  · rfl
  · rfl
  · rfl
  · rcases done.recordAssignment_eq n with heq | ⟨name, classes, heq⟩ <;> rw [heq]
  all_goals rfl

theorem visit_counted (path : Path) (n : Node) (w : Walker) : w.Counted (visit path n w) := by
  induction n using Node.induction_on_children generalizing path w with
  | step n ih =>
    obtain ⟨places, inner, hvisit, -, htour⟩ := exists_tour path n w
    have hinner := htour.counted_of ih
    rw [hvisit]
    refine ⟨⟨observe_nextScope, ?_⟩, ?_⟩
    · rw [← entered_nextScope]
      exact hinner.numbered
    · rw [left_nextScope, functionsIn_cons, ← Nat.add_assoc, ← entered_nextScope]
      exact hinner.next

end Walker

end Numbers

namespace Walker

variable {tree n : Node} {path : Path} {w : Walker} {v : Visit}

theorem entered_id :
    (w.entered n).scope.id = if n.kind.isFunction = true then w.nextScope else w.scope.id := by
  by_cases hfunction : n.kind.isFunction = true
  · rw [if_pos hfunction, entered_of_function (Kind.manner_eq_function.mpr hfunction)]
    exact functionScope_id
  · rw [if_neg hfunction]
    by_cases hclass : n.kind.manner = .classLike
    · rw [entered_of_class hclass]
    · exact (entered_alongside (mt Kind.manner_eq_function.mp hfunction) hclass).scope.id

/-- The id of a scope is the one that the innermost function around has been given. -/
theorem id_of_mem_visit (hn : tree.at? path = some n) (hv : v ∈ (visit path n w).2) :
    (tree.innermost? Kind.isFunction v.path = tree.innermost? Kind.isFunction path ∧
        v.walker.scope.id = w.scope.id) ∨
      ∃ f ∈ (visit path n w).2, f.node.kind.isFunction = true ∧
        tree.innermost? Kind.isFunction v.path = some f.path ∧
          v.walker.scope.id = f.walker.nextScope := by
  induction n using Node.induction_on_children generalizing path w with
  | step n ih =>
    rcases mem_visit_entered hv with rfl | ⟨c, i, before, hc, hbefore, hvc, hsubset⟩
    · exact .inl ⟨rfl, (Alongside.observe w n).scope.id⟩
    · have hat : tree.at? (path ++ [i]) = some c := by
        rw [Node.at?_concat, hn, Option.bind_some, hc]
      rcases ih c (List.mem_of_getElem? hc) hat hvc with
        ⟨hinner, hid⟩ | ⟨f, hf, hkind, hinner, hid⟩
      · rw [Node.innermost?_concat hn] at hinner
        rw [hbefore.scope.id, entered_id] at hid
        by_cases hkind : n.kind.isFunction = true
        · rw [if_pos hkind] at hinner hid
          obtain ⟨places, inner, hvisit, -⟩ := exists_tour path n w
          refine .inr ⟨⟨path, n, w.observe n⟩, ?_, hkind, hinner, hid.trans observe_nextScope.symm⟩
          rw [hvisit]
          exact List.mem_cons_self
        · rw [if_neg hkind] at hinner hid
          exact .inl ⟨hinner, hid⟩
      · exact .inr ⟨f, hsubset hf, hkind, hinner, hid⟩

end Walker

/-- Scopes have the same id exactly where the innermost function around is the same. -/
theorem id_eq_iff {tree : Node} {v v' : Visit} (hv : v ∈ visits tree) (hv' : v' ∈ visits tree) :
    v.walker.scope.id = v'.walker.scope.id ↔
      tree.innermost? Kind.isFunction v.path = tree.innermost? Kind.isFunction v'.path := by
  have hnumbered : Numbered 1 (visits tree) := (Walker.visit_counted [] tree {}).numbered
  have hnodup : ((visits tree).map (·.path)).Nodup := Walker.nodup_visit [] tree {}
  have hpositive {f : Visit} (hf : f ∈ visits tree) : f.walker.nextScope ≠ 0 :=
    Nat.ne_of_gt (hnumbered.le hf)
  rcases Walker.id_of_mem_visit rfl hv with ⟨hinner, hid⟩ | ⟨f, hf, hkind, hinner, hid⟩ <;>
    rcases Walker.id_of_mem_visit rfl hv' with
      ⟨hinner', hid'⟩ | ⟨f', hf', hkind', hinner', hid'⟩ <;>
    rw [hid, hid', hinner, hinner']
  · simp
  · simp [Node.innermost?_nil, (hpositive hf').symm]
  · simp [Node.innermost?_nil, hpositive hf]
  · rw [Option.some.injEq]
    constructor
    · intro heq
      rw [hnumbered.eq_of_nextScope_eq hf hf' hkind hkind' heq]
    · intro heq
      rw [List.inj_on_of_nodup_map hnodup hf hf' heq]

namespace Php.Node

/-- What the innermost class around a place gives to methods. -/
def classContextAt (tree : Node) (p : Path) : ClassContext :=
  ((tree.innermost? Kind.isClass p).bind tree.at?).elim {} Walker.classContext

/-- What the innermost function that is declared gives to its scope and those of closures in it. -/
def scopeContextAt (tree : Node) (p : Path) : ClassContext :=
  match tree.innermost? Kind.isDeclared p with
  | none => {}
  | some q => if (tree.at? q).any (·.kind == .method) then tree.classContextAt q else {}

variable {tree n : Node} {p : Path}

theorem classContextAt_concat (hn : tree.at? p = some n) (i : Nat) :
    tree.classContextAt (p ++ [i]) =
      if n.kind.isClass = true then Walker.classContext n else tree.classContextAt p := by
  unfold classContextAt
  rw [innermost?_concat hn]
  split
  · rw [Option.bind_some, hn, Option.elim_some]
  · rfl

theorem scopeContextAt_concat (hn : tree.at? p = some n) (i : Nat) :
    tree.scopeContextAt (p ++ [i]) =
      if n.kind = .method then tree.classContextAt p
      else if n.kind = .function then {} else tree.scopeContextAt p := by
  unfold scopeContextAt
  rw [innermost?_concat hn]
  by_cases hmethod : n.kind = .method
  · simp [Kind.isDeclared, hmethod, hn]
  · by_cases hfunction : n.kind = .function
    · simp [Kind.isDeclared, hfunction, hn]
    · simp [Kind.isDeclared, hmethod, hfunction]

end Php.Node

/-- The class of a scope and the class that it extends. -/
def Scope.context (s : Scope) : ClassContext :=
  ⟨s.class?, s.parent?⟩

theorem Scope.Rebound.context {s s' : Scope} (h : s.Rebound s') : s'.context = s.context := by
  rw [Scope.context, h.class?, h.parent?, Scope.context]

namespace Walker

variable {tree n : Node} {path : Path} {w : Walker} {v : Visit}

theorem ownScope_context :
    (w.ownScope n).context = if n.kind = .method then w.around
      else if n.kind = .function then {} else w.scope.context := by
  unfold ownScope
  split
  · rename_i hkind
    rw [if_pos hkind]
    rfl
  · rename_i hkind
    rw [if_neg (by simp [hkind]), if_pos hkind]
    rfl
  · rename_i hmethod hfunction
    rw [if_neg hmethod, if_neg hfunction]
    rfl

/-- The class of the scope and the class around are those that the place has. -/
structure InContext (tree : Node) (p : Path) (w : Walker) : Prop where
  around : w.around = tree.classContextAt p
  scope : w.scope.context = tree.scopeContextAt p

theorem InContext.alongside {w' : Walker} (h : InContext tree path w) (hw : w.Alongside w') :
    InContext tree path w' :=
  ⟨hw.around.trans h.around, hw.scope.context.trans h.scope⟩

/-- On entering a node the walker has around it what is around its children. -/
theorem InContext.entered (h : InContext tree path w) (hn : tree.at? path = some n) (i : Nat) :
    InContext tree (path ++ [i]) (w.entered n) := by
  have hscope := Node.scopeContextAt_concat hn i
  have haround := Node.classContextAt_concat hn i
  by_cases hfunction : n.kind.isFunction = true
  · rw [if_neg (Kind.not_isClass_of_isFunction hfunction)] at haround
    rw [entered_of_function (Kind.manner_eq_function.mpr hfunction)]
    refine ⟨h.around.trans haround.symm, ?_⟩
    rw [hscope, (functionScope_rebound w n).context, ownScope_context, h.around, h.scope]
  · obtain ⟨hmethod, hdeclared⟩ := Kind.ne_of_not_isFunction hfunction
    rw [if_neg hmethod, if_neg hdeclared] at hscope
    by_cases hclass : n.kind.isClass = true
    · rw [if_pos hclass] at haround
      rw [entered_of_class (Kind.manner_eq_classLike.mpr hclass)]
      exact ⟨haround.symm, h.scope.trans hscope.symm⟩
    · rw [if_neg hclass] at haround
      have halongside : w.Alongside (w.entered n) :=
        entered_alongside (mt Kind.manner_eq_function.mp hfunction)
          (mt Kind.manner_eq_classLike.mp hclass)
      exact InContext.alongside ⟨h.around.trans haround.symm, h.scope.trans hscope.symm⟩ halongside

end Walker

namespace Declaration

variable {tree c : Node} {p q : Path}

theorem isClass_iff {kind : Kind} :
    kind.isClass = true ↔ kind ∈ namedClasses ∨ kind = .anonymousClass := by
  cases kind <;> decide

/-- The class around for the search is the class around for the walk, unless it is the creation of
an object. -/
theorem ClassAround.innermost? (h : ClassAround tree p q c) (hc : c.kind.isClass = true) :
    tree.innermost? Kind.isClass p = some q := by
  refine Node.innermost?_eq_some_iff.mpr ⟨Node.mem_around_iff.mpr ⟨h.around, c, h.node, hc⟩, ?_⟩
  intro r hr
  obtain ⟨⟨hrp, hne⟩, m, hm, hclass⟩ := Node.mem_around_iff.mp hr
  refine h.innermost r m hm ?_ hrp hne
  rcases isClass_iff.mp hclass with hnamed | hkind
  · exact List.mem_append_left _ hnamed
  · exact List.mem_append_right _ (by rw [hkind]; decide)

end Declaration

end Availability
