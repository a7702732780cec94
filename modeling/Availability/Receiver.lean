import Availability.Php.Literal
import Availability.Scope

/-!
# Classes of expressions

Which classes the value of an expression may have, from what is known in its scope: `$this`, bound
variables, new objects and clones. An expression of any other form has no known class.
-/
namespace Availability.Receiver

open Php

/-- A class that is written literally. -/
def named? (scope : Scope) (n : Node) : Option String :=
  match n.kind with
  | .relativeScope => n.text?.bind fun text => scope.resolve? (Text.trim text)
  | _ => n.literalName?.bind scope.resolve?

def isClassName (n : Node) : Bool :=
  n.kind == .name || n.kind == .qualifiedName || n.kind == .relativeScope

/-- The class of a new object, if it is written literally. -/
def created? (scope : Scope) (n : Node) : Option String :=
  (n.namedChildren.find? isClassName).bind (named? scope)

mutual

/-- The expression whose value is in parentheses or cloned. -/
def origin : Node → Node
  | .mk kind role line text children =>
    if kind = .parenthesized ∨ kind = .clone then
      originFirst (.mk kind role line text children) children
    else .mk kind role line text children

def originFirst (outer : Node) : List Node → Node
  | [] => outer
  | n :: rest => if n.isNamed then origin n else originFirst outer rest

end

/-- The classes that the value of an expression may have. -/
def classes (scope : Scope) (n : Node) : List String :=
  let n := origin n
  match n.kind with
  | .variable =>
    match n.variableName? with
    | some name => scope.classesOf name
    | none => []
  | .objectCreation => (created? scope n).toList
  | _ => []

mutual

def typeNames (scope : Scope) : Node → List String
  | .mk kind role line text children =>
    if kind = .primitiveType then []
    else if isClassName (.mk kind role line text children) then
      (named? scope (.mk kind role line text children)).toList
    else typeNamesAll scope children

def typeNamesAll (scope : Scope) : List Node → List String
  | [] => []
  | n :: rest => (if n.isNamed then typeNames scope n else []) ++ typeNamesAll scope rest

end

/-- The classes that a declared type names, each once. -/
def ofType (scope : Scope) (type : Node) : List String :=
  (typeNames scope type).eraseDups

end Availability.Receiver
