import Availability.Classes
import Availability.Receiver

/-!
# What a call may call
-/
namespace Availability

inductive Candidate where
  | function (name : String)
  /-- A method of classes, with the keys under which it may stand in the symbol table, in the order
  in which they are tried. -/
  | method (name : String) (receiver : Option Variable) (classes keys : List String)
  deriving DecidableEq

namespace Candidate

open Php

/-- The key of a method in the symbol table. -/
def methodKey (className method : String) : String :=
  className ++ "::" ++ method

/-- A method of at least one class. -/
def ofMethod? (known : Classes) (name : String) (receiver : Option Variable)
    (classes : List String) : Option Candidate :=
  if classes.isEmpty then none
  else some (.method name receiver classes ((known.probeOrder classes).map (methodKey · name)))

theorem eq_of_ofMethod? {known : Classes} {name : String} {receiver : Option Variable}
    {classes : List String} {candidate : Candidate}
    (h : ofMethod? known name receiver classes = some candidate) :
    candidate =
      .method name receiver classes ((known.probeOrder classes).map (methodKey · name)) := by
  unfold ofMethod? at h
  split at h
  · cases h
  · exact (Option.some.inj h).symm

/-- The name of a called method, if it is written literally. -/
def methodName? (call : Node) : Option String :=
  match call.child? .name with
  | none => none
  | some name => if name.kind == .name then name.text? else none

/-- What a call may call; nothing for computed names and for receivers of unknown class. -/
def ofCall? (known : Classes) (scope : Scope) (call : Node) : Option Candidate :=
  match call.kind with
  | .functionCall => ((call.child? .callee).bind Node.literalName?).map .function
  | .methodCall | .nullsafeCall =>
    match methodName? call, call.child? .receiver with
    | some name, some receiver =>
      let object := receiver.unparenthesize
      ofMethod? known name (object.variableName?.map scope.variableNamed)
        (Receiver.classes scope object)
    | _, _ => none
  | .staticCall =>
    match methodName? call, (call.child? .scope).bind (Receiver.named? scope) with
    | some name, some className => ofMethod? known name none [className]
    | _, _ => none
  | _ => none

end Candidate

end Availability
