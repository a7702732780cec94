import Availability.Policy

/-!
# Walking a tree

The walk visits a tree in order and keeps what is around the node it is at: the scope, the class,
the guards, and whether it is inside of a condition. It does not depend on any policy; a policy then
reports on the calls that were visited.
-/
namespace Availability

open Php

/-- The class around a node: its name, if it has one, and the class it extends. -/
structure ClassContext where
  name : Option String := none
  parent : Option String := none
  deriving DecidableEq

/-- What is around the node that a walk is at. -/
structure Walker where
  guards : Guards := {}
  scope : Scope := { id := 0 }
  around : ClassContext := {}
  /-- The id of the next scope. -/
  nextScope : Nat := 1
  /-- Whether the walk is inside of the condition of an `if` or `elseif`. -/
  inTest : Bool := false
  deriving DecidableEq

/-- The place of a node: the positions of its ancestors and itself among their siblings. -/
abbrev Path := List Nat

/-- A node that was visited, with what was around it. A call stands under the guard that it is. -/
structure Visit where
  path : Path
  node : Node
  walker : Walker

namespace Walker

def bindParameter (scope : Scope) (parameter : Node) : Scope :=
  if parameter.kind == .parameter || parameter.kind == .promotedParameter then
    match (parameter.child? .name).bind Node.variableName? with
    | none => scope
    | some name =>
      match parameter.child? .type with
      | none => scope.assign name []
      | some type => scope.assign name (Receiver.ofType scope type)
  else scope

/-- The scope with the parameters of a function bound to their declared classes. -/
def bindParameters (n : Node) (scope : Scope) : Scope :=
  match n.child? .parameters with
  | none => scope
  | some parameters => parameters.namedChildren.foldl bindParameter scope

def captured? (n : Node) : Option String :=
  if n.kind == .byReference then n.namedChildren.head?.bind Node.variableName? else n.variableName?

/-- The scope of a closure with the variables that it takes over from the scope around. -/
def bindCaptures (n : Node) (outer scope : Scope) : Scope :=
  match n.childOfKind? .captures with
  | none => scope
  | some captures =>
    (captures.namedChildren.filterMap captured?).foldl
      (fun scope name => scope.assign name (outer.classesOf name)) scope

/-- The scope of a function with its parameters: a method has the class around it, a closure has the
class of the scope around it. -/
def functionScope (w : Walker) (n : Node) : Scope :=
  let scope : Scope :=
    match n.kind with
    | .method => { id := w.nextScope, class? := w.around.name, parent? := w.around.parent }
    | .function => { id := w.nextScope }
    | _ => { id := w.nextScope, class? := w.scope.class?, parent? := w.scope.parent? }
  bindParameters n (bindCaptures n w.scope scope)

/-- The walker after an assignment. -/
def recordAssignment (w : Walker) (n : Node) : Walker :=
  match n.child? .left, n.child? .right with
  | some left, some right =>
    match left.variableName? with
    | none => w
    | some name =>
      if name == "this" then w
      else { w with scope := w.scope.assign name (Receiver.classes w.scope right) }
  | _, _ => w

/-- The walker inside of a `catch`. -/
def recordCatch (w : Walker) (n : Node) : Walker :=
  match (n.child? .name).bind Node.variableName? with
  | none => w
  | some name =>
    match n.child? .type with
    | none => { w with scope := w.scope.assign name [] }
    | some type => { w with scope := w.scope.assign name (Receiver.ofType w.scope type) }

/-- The walker at a call: inside of a condition the guard that the call is comes into effect. -/
def observe (w : Walker) (n : Node) : Walker :=
  if w.inTest then
    match Guard.ofCall? w.scope n with
    | none => w
    | some guard => { w with guards := w.guards.register guard }
  else w

def classContext (n : Node) : ClassContext where
  name := (n.child? .name).bind Node.literalName?
  parent := n.baseClass?

mutual

/-- Visits a node and what is below it. -/
def visit (path : Path) : Node → Walker → Walker × List Visit
  | .mk kind role line text children, w =>
    let n := Node.mk kind role line text children
    match kind with
    | .ifStatement | .elseIfClause =>
      let (tested, inCondition) :=
        visitFirst .condition path 0 children { w with guards := w.guards.enter, inTest := true }
      let (done, inBody) := visitFirst .body path 0 children { tested with inTest := w.inTest }
      let (after, inRest) :=
        visitEvery .alternative path 0 children { done with guards := done.guards.leave }
      (after, ⟨path, n, w⟩ :: (inCondition ++ inBody ++ inRest))
    | .arrowFunction =>
      let (done, inBody) :=
        visitFirst .body path 0 children { w with scope := bindParameters n w.scope }
      ({ done with scope := w.scope }, ⟨path, n, w⟩ :: inBody)
    | .function | .method | .closure =>
      let (done, inBody) := visitFirst .body path 0 children
        { w with scope := w.functionScope n, nextScope := w.nextScope + 1, inTest := false }
      ({ done with scope := w.scope, inTest := w.inTest }, ⟨path, n, w⟩ :: inBody)
    | .assignment | .referenceAssignment =>
      let (done, below) := visitAll path 0 children w
      (done.recordAssignment n, ⟨path, n, w⟩ :: below)
    | .catchClause =>
      let (done, below) := visitAll path 0 children (w.recordCatch n)
      (done, ⟨path, n, w⟩ :: below)
    | .classDeclaration | .interfaceDeclaration | .traitDeclaration | .enumDeclaration
    | .anonymousClass =>
      let (done, below) := visitAll path 0 children { w with around := classContext n }
      ({ done with around := w.around }, ⟨path, n, w⟩ :: below)
    | .functionCall | .methodCall | .nullsafeCall | .staticCall =>
      let observed := w.observe n
      let (done, below) := visitAll path 0 children observed
      (done, ⟨path, n, observed⟩ :: below)
    | _ =>
      let (done, below) := visitAll path 0 children w
      (done, ⟨path, n, w⟩ :: below)

/-- Visits the named nodes of a list of siblings; `i` is the position of the first. -/
def visitAll (path : Path) (i : Nat) : List Node → Walker → Walker × List Visit
  | [], w => (w, [])
  | n :: rest, w =>
    let (next, first) := if n.isNamed then visit (path ++ [i]) n w else (w, [])
    let (done, others) := visitAll path (i + 1) rest next
    (done, first ++ others)

/-- Visits the first sibling with a role. -/
def visitFirst (role : Role) (path : Path) (i : Nat) : List Node → Walker → Walker × List Visit
  | [], w => (w, [])
  | n :: rest, w =>
    if n.role = role then visit (path ++ [i]) n w else visitFirst role path (i + 1) rest w

/-- Visits every sibling with a role. -/
def visitEvery (role : Role) (path : Path) (i : Nat) : List Node → Walker → Walker × List Visit
  | [], w => (w, [])
  | n :: rest, w =>
    let (next, first) := if n.role = role then visit (path ++ [i]) n w else (w, [])
    let (done, others) := visitEvery role path (i + 1) rest next
    (done, first ++ others)

end

end Walker

/-- The visits of a tree, in order. -/
def visits (tree : Node) : List Visit :=
  (Walker.visit [] tree {}).2

/-- What a policy has to say about a visited node. -/
def Policy.check (p : Policy) (v : Visit) : Option Finding :=
  (Candidate.ofCall? p.classes v.walker.scope v.node).bind (p.evaluate v.walker.guards)

/-- The diagnostics of a file, in the order of the walk. -/
def Policy.diagnose (p : Policy) (file : String) (tree : Node) : List Diagnostic :=
  (visits tree).filterMap fun v =>
    (p.check v).map fun f => ⟨f.issue, f.message, file, v.node.line, f.symbol, f.since⟩

end Availability
