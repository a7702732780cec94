import Availability.Php.Node
import Availability.Text.CaseFold
import Availability.Text.Whitespace

/-!
# What is written literally

The values that can be read off a tree without running anything: quoted texts without embedded
expressions, names, class constants, and the arguments of a call.
-/
namespace Availability.Php

namespace Literal

/-- Whether a double-quoted text, without its quotes, embeds a variable or an expression. A
backslash takes the next character along. -/
def hasEmbedded : List Char → Bool
  | [] => false
  | '\\' :: rest =>
    match rest with
    | [] => false
    | _ :: rest => hasEmbedded rest
  | '$' :: rest =>
    match rest with
    | [] => false
    | c :: rest => c == '{' || c == '_' || c.isAlpha || hasEmbedded (c :: rest)
  | '{' :: rest =>
    match rest with
    | [] => false
    | c :: rest => c == '$' || hasEmbedded (c :: rest)
  | _ :: rest => hasEmbedded rest

/-- Replaces a backslash before a backslash or one of the given characters by that character. -/
def unescape (escaped : List Char) : List Char → List Char
  | [] => []
  | '\\' :: c :: rest =>
    if c == '\\' || escaped.contains c then c :: unescape escaped rest
    else '\\' :: unescape escaped (c :: rest)
  | c :: rest => c :: unescape escaped rest

/-- The opposite of `unescape`: a backslash before every backslash and given character. -/
def escape (escaped : List Char) : List Char → List Char
  | [] => []
  | c :: rest =>
    if c == '\\' || escaped.contains c then '\\' :: c :: escape escaped rest
    else c :: escape escaped rest

/-- The text between two quotes; a `b` may stand before the first. -/
def unquote? (quote : Char) (text : List Char) : Option (List Char) :=
  let text :=
    match text with
    | c :: rest => if c == 'b' || c == 'B' then rest else text
    | [] => text
  match text with
  | [] => none
  | c :: rest => if c == quote && rest.getLast? == some quote then some rest.dropLast else none

/-- The value of a single-quoted text. -/
def singleQuoted? (text : String) : Option String :=
  (unquote? '\x27' text.toList).map fun inner => String.ofList (unescape ['\x27'] inner)

/-- The value of a double-quoted text that embeds nothing. -/
def doubleQuoted? (text : String) : Option String :=
  match unquote? '"' text.toList with
  | none => none
  | some inner =>
    if hasEmbedded inner then none else some (String.ofList (unescape ['"', '$'] inner))

/-- A name without the separators at its start. -/
def withoutLeadingSeparators (s : String) : String :=
  String.ofList (s.toList.dropWhile (· == '\\'))

def nonempty? (s : String) : Option String :=
  if s.isEmpty then none else some s

/-- A name or class as it is looked up; nothing is left of separators alone. -/
def lookupName? (s : String) : Option String :=
  nonempty? (withoutLeadingSeparators s)

end Literal

namespace Node

/-- The value of a quoted text that is a literal. -/
def literalString? (n : Node) : Option String :=
  match n.kind with
  | .singleQuoted => n.text?.bind Literal.singleQuoted?
  | .doubleQuoted => n.text?.bind Literal.doubleQuoted?
  | _ => none

/-- The name that a name node stands for. -/
def literalName? (n : Node) : Option String :=
  match n.kind with
  | .name | .qualifiedName => n.text?.bind fun text => Literal.lookupName? (Text.trim text)
  | _ => none

/-- The class whose name a class constant gives. -/
def classConstant? (n : Node) : Option String :=
  match n.kind, n.namedChildren with
  | .classConstant, [scope, constant] =>
    if constant.text?.any (Text.sameLetters "class") then
      match scope.kind with
      | .relativeScope => scope.text?.map Text.trim
      | _ => scope.literalName?
    else none
  | _, _ => none

/-- The name of a plain variable, without its sign. -/
def variableName? (n : Node) : Option String :=
  match n.kind with
  | .variable =>
    match n.text?.map String.toList with
    | some ('$' :: name) => some (String.ofList name)
    | _ => none
  | _ => none

/-- The class that a class extends. -/
def baseClass? (n : Node) : Option String :=
  match n.childOfKind? .baseClause with
  | none => none
  | some base => base.namedChildren.findSome? literalName?

/-- The values of the arguments of a call, in order. -/
def callArguments (call : Node) : List Node :=
  match call.child? .arguments with
  | none => []
  | some arguments =>
    (arguments.namedChildren.filter (·.kind == .argument)).filterMap (·.namedChildren.getLast?)

/-- Whether a call only names what it would call. -/
def isFirstClassCallable (call : Node) : Bool :=
  match call.child? .arguments with
  | none => false
  | some arguments => arguments.namedChildren.any (·.kind == .placeholder)

mutual

/-- The expression inside of parentheses; a comment that stands first hides it. -/
def unparenthesize : Node → Node
  | mk kind role line text children =>
    if kind = .parenthesized then
      unparenthesizeFirst (mk kind role line text children) children
    else mk kind role line text children

def unparenthesizeFirst (outer : Node) : List Node → Node
  | [] => outer
  | n :: rest => if n.isNamed then unparenthesize n else unparenthesizeFirst outer rest

end

end Node

end Availability.Php
