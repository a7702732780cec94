import Availability.Php.Literal
import Availability.Scope

/-!
# Guards

A guard is a test for a function or method in the condition of an `if` or `elseif`. It protects the
calls in that condition and in the body after it. `Guards` has a frame for each conditional that is
open, innermost first.
-/
namespace Availability

/-- What a test for a method asks about. -/
inductive Subject where
  | variable (v : Variable)
  | class (name : String)
  deriving DecidableEq

inductive Guard where
  | function (name : String)
  | method (subject : Subject) (member : String)
  deriving DecidableEq

structure Guards where
  frames : List (List Guard) := []
  deriving DecidableEq

namespace Guards

def enter (g : Guards) : Guards :=
  ⟨[] :: g.frames⟩

def leave (g : Guards) : Guards :=
  ⟨g.frames.tail⟩

def depth (g : Guards) : Nat :=
  g.frames.length

/-- Adds a guard to the innermost frame; without a frame it is dropped. -/
def register (g : Guards) (guard : Guard) : Guards :=
  match g.frames with
  | [] => g
  | frame :: outer => ⟨(frame ++ [guard]) :: outer⟩

def active (g : Guards) : List Guard :=
  g.frames.flatten

/-- Whether a test for the function is in effect; letter case does not count. -/
def coversFunction (g : Guards) (name : String) : Bool :=
  g.active.any fun guard =>
    match guard with
    | .function tested => Text.sameLetters tested name
    | .method _ _ => false

/-- Whether a test for the method is in effect: of the same variable, or of one of the classes. The
name of the method counts exactly. -/
def coversMethod (g : Guards) (receiver : Option Variable) (classes : List String)
    (method : String) : Bool :=
  g.active.any fun guard =>
    match guard with
    | .function _ => false
    | .method subject member =>
      member == method &&
        match subject with
        | .variable v => receiver == some v
        | .class name => classes.any (Text.sameLetters name)

@[simp] theorem leave_enter (g : Guards) : g.enter.leave = g := rfl

end Guards

namespace Guard

open Php

/-- What a test for a method is about, if it is written literally. -/
def subject? (scope : Scope) (n : Node) : Option Subject :=
  let n := n.unparenthesize
  match n.variableName? with
  | some name => some (.variable (scope.variableNamed name))
  | none =>
    match n.literalString? with
    | some text => (Literal.lookupName? text).map .class
    | none => (n.classConstant?.bind scope.resolve?).map .class

/-- The guard that a call is: a call of one of the two test functions with literal arguments. -/
def ofCall? (scope : Scope) (call : Node) : Option Guard :=
  if call.kind != .functionCall || call.isFirstClassCallable then none
  else
    match (call.child? .callee).bind Node.literalName? with
    | none => none
    | some callee =>
      if Text.sameLetters callee "function_exists" then
        match call.callArguments with
        | [] => none
        | tested :: _ =>
          (tested.literalString?.bind Literal.lookupName?).map .function
      else if Text.sameLetters callee "method_exists" then
        match call.callArguments with
        | object :: tested :: _ =>
          match tested.literalString? with
          | none => none
          | some member => (subject? scope object).map (.method · member)
        | _ => none
      else none

end Guard

end Availability
