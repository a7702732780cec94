import Availability.Php.Grammar.Function

/-!
# Constants, functions and classes
-/
namespace Availability.Php.Grammar

open Rule

variable (r : Rules)

def names (ends : Bool) : Rule := commaSeparated ends (anyName ends)

def baseClause : Rule :=
  when (Ahead.keyword "extends") (node .baseClause (seq [keyword "extends", names false]))

def interfaces : Rule :=
  when (Ahead.keyword "implements") (node .other (seq [keyword "implements", names false]))

/-- Whether a constant has a type: its own name stands before `=`. -/
def constantTypeAhead (p : Position) : Bool :=
  !scopeWordAhead p && (primitiveAhead p || !Ahead.name p || !Ahead.second (Ahead.symbol "=") p)

def constants (before : List Node) : Rule :=
  following .other before <| seq [
    keyword "const", when constantTypeAhead (type false),
    commaSeparated true (node .other (seq [name, symbol "=", r.final])),
    semicolon]

/-- How a method of a trait is taken over. -/
def traitRule : Rule :=
  let newName :=
    firstOf [(Ahead.anyKeyword visibilityWords,
        seq [visibility, when (Ahead.both (Ahead.goesOn true) Ahead.name) name])]
      name
  andThen (r .traitMethod) fun method =>
    firstOf [(Ahead.keyword "insteadof",
        if method.getLast?.any (·.kind == .classConstant) then
          following .other method (seq [keyword "insteadof", name])
        else fail)]
      (following .other method (seq [keyword "as", newName]))

def traitUse : Rule :=
  node .other <| seq [
    keyword "use", names true,
    firstOf [
        (Ahead.sectionEnd, nothing),
        (Ahead.symbol "\x7b", braced (seq [traitRule r, semicolon]))]
      semicolon]

def method (before : List Node) : Rule :=
  following .method before <| seq [
    functionHeader r true,
    firstOf [(Ahead.both (Ahead.goesOn true) (Ahead.symbol "\x7b"), body r)] semicolon]

def property (before : List Node) : Rule :=
  following .other before <| seq [
    when (Ahead.not (Ahead.symbol "$")) (field .type (type false)),
    commaSeparated true (node .other (seq [variableName, defaultValue r true])),
    firstOf [(Ahead.both (Ahead.goesOn true) (Ahead.symbol "\x7b"), hooks r)] semicolon]

/-- A member of a class; only a property needs a modifier. -/
def member : Rule :=
  firstOf [(Ahead.keyword "use", traitUse r)] <|
    andThen (attributes r) fun before => andThen modifiers fun words =>
      let before := before ++ words
      firstOf [
          (Ahead.keyword "const", constants r before),
          (Ahead.keyword "function", method r before)]
        (if words.isEmpty then fail else property r before)

/-- A member of an enumeration, which has no constants and no properties. -/
def enumMember : Rule :=
  firstOf [(Ahead.keyword "use", traitUse r)] <|
    andThen (attributes r) fun before =>
      firstOf [(Ahead.keyword "case",
          following .other before (seq [keyword "case", name, defaultValue r true, semicolon]))] <|
        andThen modifiers fun words => method r (before ++ words)

def members : Rule := field .body (braced (member r))

/-- A class without a name, after its attributes and modifiers. -/
def anonymousClass : Rule :=
  node .anonymousClass <| seq [
    attributes r, modifiers, keyword "class", when (Ahead.symbol "(") (arguments r),
    baseClause, interfaces, members r]

def classDeclaration (before : List Node) : Rule :=
  following .classDeclaration before <| seq [
    keyword "class", field .name name, baseClause, interfaces, members r,
    when (Ahead.both (Ahead.goesOn true) (Ahead.symbol ";")) (symbol ";")]

def interfaceDeclaration (before : List Node) : Rule :=
  following .interfaceDeclaration before <| seq [
    keyword "interface", field .name name, baseClause, members r]

def traitDeclaration (before : List Node) : Rule :=
  following .traitDeclaration before (seq [keyword "trait", field .name name, members r])

/-- The words for the type of the cases need no blank after them. -/
def enumDeclaration (before : List Node) : Rule :=
  let backing : Rule := choose fun p =>
    if Source.startsWith "string".toList p.next.rest then take .primitiveType 6
    else if Source.startsWith "int".toList p.next.rest then take .primitiveType 3
    else fail
  following .enumDeclaration before <| seq [
    keyword "enum", field .name name, when (Ahead.symbol ":") (seq [symbol ":", backing]),
    interfaces, field .body (braced (enumMember r))]

def functionDeclaration (before : List Node) : Rule :=
  following .function before (seq [functionHeader r false, body r])

/-- Whether a function with a name is ahead. -/
def namedFunctionAhead : Position → Bool :=
  Ahead.both (Ahead.keyword "function") <| Ahead.second fun p =>
    Ahead.name p || Ahead.both (Ahead.symbol "&") (Ahead.second Ahead.name) p

/-- Whether modifiers are ahead that something declared follows; `static` may also start a statement
of its own or an expression. -/
def modifierAhead (p : Position) : Bool :=
  Ahead.anyKeyword (visibilityWords ++ ["final", "abstract", "readonly", "var"]) p ||
    Ahead.both (Ahead.keyword "static")
      (Ahead.second (Ahead.anyKeyword ("class" :: "const" :: visibilityWords ++ modifierWords))) p

/-- Whether a declaration follows, after attributes. -/
def declarationAhead (p : Position) : Bool :=
  Ahead.anyKeyword ["class", "interface", "trait", "enum", "const"] p || namedFunctionAhead p ||
    modifierAhead p

/-- A constant, a function or a class, after its attributes. -/
def declaration (before : List Node) : Rule :=
  firstOf [
      (Ahead.keyword "interface", interfaceDeclaration r before),
      (Ahead.keyword "trait", traitDeclaration r before),
      (Ahead.keyword "enum", enumDeclaration r before),
      (Ahead.keyword "function", functionDeclaration r before)] <|
    andThen modifiers fun words =>
      firstOf [(Ahead.keyword "const", constants r (before ++ words))]
        (classDeclaration r (before ++ words))

end Availability.Php.Grammar
