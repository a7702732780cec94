import Availability.Php.Grammar.Rule

/-!
# Names and types

`ends` says whether a statement may end after what is read, so that the end of a PHP section would
end it.
-/
namespace Availability.Php.Grammar

open Rule

def separatorAhead (ends : Bool) : Position → Bool :=
  Ahead.both (Ahead.goesOn ends) <|
    Ahead.both (Ahead.symbol "\\") (Ahead.second Ahead.name)

/-- Names with separators between them. -/
def nameParts (ends : Bool) : Rule :=
  seq [name, repeatWhile (separatorAhead ends) (seq [symbol "\\", name])]

/-- Whether `self`, `parent` or `static` is ahead. -/
def scopeWordAhead (p : Position) : Bool :=
  Ahead.exactly "self" p || Ahead.exactly "parent" p || Ahead.keyword "static" p

/-- A plain or qualified name, in which any word can stand. -/
def typeReference (ends : Bool) : Rule :=
  firstOf [
      (Ahead.symbol "\\", spelled .qualifiedName (seq [symbol "\\", nameParts ends])),
      (Ahead.both Ahead.name (Ahead.second (separatorAhead ends)),
        spelled .qualifiedName (nameParts ends))]
    name

/-- A plain or qualified name, or one of the words that stand for a class. -/
def anyName (ends : Bool) : Rule :=
  firstOf [(scopeWordAhead, name)] (typeReference ends)

/-- The name of a namespace. -/
def namespaceName (ends : Bool) : Rule :=
  spelled .other (seq [optional "\\", nameParts ends])

def primitiveTypes : List String :=
  ["array", "iterable", "bool", "float", "int", "string", "void", "mixed", "false", "null", "true"]

/-- Primitive types are written in small letters, but for `callable`. -/
def primitiveAhead (p : Position) : Bool :=
  Ahead.keyword "callable" p || primitiveTypes.contains p.word

/-- A member of a type; it may be absent where a question mark stands before it. Two question marks
are no symbol of their own there. -/
def typeName (ends : Bool) : Rule :=
  let plain := firstOf [(primitiveAhead, takeAs .primitiveType)] (node .other (typeReference ends))
  firstOf [(Ahead.oneOf ["?", "??"], node .other (seq [take .token 1, plain]))] plain

/-- Whether a type goes on after `&`, which before a variable belongs to the parameter. -/
def intersectionAhead (ends : Bool) : Position → Bool :=
  Ahead.both (Ahead.goesOn ends) <| Ahead.both (Ahead.symbol "&") <|
    Ahead.second (Ahead.not (Ahead.oneOf ["$", "...", "&"]))

def unionAhead (ends : Bool) : Position → Bool :=
  Ahead.both (Ahead.goesOn ends) (Ahead.symbol "|")

def typeGroup : Rule :=
  node .other <| seq [
    symbol "(", typeName false,
    repeatWhile (Ahead.symbol "&") (seq [symbol "&", typeName false]),
    symbol ")"]

/-- Types joined by `|`, where parentheses may hold an intersection, or by `&`. -/
def type (ends : Bool) : Rule :=
  let unionRest := repeatWhile (unionAhead ends) <| seq [
    symbol "|", firstOf [(Ahead.symbol "(", typeGroup)] (typeName ends)]
  let intersectionRest := repeatWhile (intersectionAhead ends) (seq [symbol "&", typeName ends])
  node .other <|
    firstOf [(Ahead.symbol "(", seq [typeGroup, unionRest])] <| seq [
      typeName ends,
      firstOf [(intersectionAhead ends, intersectionRest)] unionRest]

/-- The type of what a function returns, if it is given; `never` stands alone. -/
def returnType (ends : Bool) : Rule :=
  when (Ahead.both (Ahead.goesOn ends) (Ahead.symbol ":")) <| seq [
    symbol ":", firstOf [(Ahead.exactly "never", takeAs .primitiveType)] (type ends)]

end Availability.Php.Grammar
