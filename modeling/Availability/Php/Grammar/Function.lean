import Availability.Php.Grammar.Goal
import Availability.Php.Grammar.Name

/-!
# Arguments, parameters and functions

A rule that takes nodes gets what has been read before it, such as attributes, and puts it into its
node: what the attributes belong to is only known after them.
-/
namespace Availability.Php.Grammar

open Rule

/-- A node around nodes that have been read before and what a rule reads. -/
def following (kind : Kind) (before : List Node) (rule : Rule) : Rule :=
  mapNodes (fun more => wrap kind (before ++ more)) rule

variable (r : Rules)

/-- A reference mark in a place where it is a part of its own. -/
def referenceMark : Rule :=
  when (Ahead.symbol "&") (symbolAs "&" .other)

/-- What a rule reads between braces. -/
def braced (item : Rule) : Rule :=
  node .other <| seq [
    symbol "\x7b", repeatWhile (Ahead.not (Ahead.symbol "\x7d")) item, symbol "\x7d"]

def block : Rule := braced r.statement

def body : Rule := field .body (block r)

def unpacked : Rule :=
  node .other (seq [symbol "...", r.whole])

/-- Words that start an expression and cannot name an argument. -/
def reservedArgumentNames : List String :=
  ["yield", "clone", "print", "new", "list", "include", "include_once", "require", "require_once"]

def argumentNameAhead : Position → Bool :=
  Ahead.both (Ahead.both Ahead.name (Ahead.not (Ahead.anyKeyword reservedArgumentNames)))
    (Ahead.second (Ahead.symbol ":"))

def argumentValue : Rule :=
  firstOf [
      (Ahead.symbol "...", unpacked r),
      (Ahead.both scopeWordAhead (Ahead.second (Ahead.oneOf [",", ")"])), name)]
    r.whole

def argument : Rule :=
  node .argument <|
    firstOf [
        (argumentNameAhead, seq [name, symbol ":", referenceMark, argumentValue r]),
        (Ahead.keyword "namespace", fail)]
      (seq [referenceMark, argumentValue r])

def arguments : Rule :=
  node .arguments <| seq [
    symbol "(",
    firstOf [(Ahead.both (Ahead.symbol "...") (Ahead.second (Ahead.symbol ")")),
        symbolAs "..." .placeholder)]
      (listUntil ")" (argument r)),
    symbol ")"]

def attributes : Rule :=
  repeatWhile (Ahead.symbol "#[") <| node .other <| seq [
    symbol "#[",
    someUntil "]" (node .other (seq [anyName false, when (Ahead.symbol "(") (arguments r)])),
    symbol "]"]

def visibilityWords : List String := ["public", "protected", "private"]

def modifierWords : List String := ["static", "final", "abstract", "readonly", "var"]

/-- Who may use a member; no blank stands before the parentheses around what it may be used for. -/
def visibility : Rule :=
  let adjoins (s : String) (p : Position) : Bool :=
    p.symbol == s && (p.last.upTo p.next).getLast?.all fun u => !Source.isBlank u
  spelled .visibility <| seq [
    takeAs .token,
    when (adjoins "(") (seq [symbol "(", name, only (adjoins ")") (symbol ")")])]

/-- Modifiers of a declaration. -/
def modifiers : Rule :=
  repeatWhile (Ahead.anyKeyword (visibilityWords ++ modifierWords)) <|
    firstOf [(Ahead.anyKeyword visibilityWords, visibility)] (takeAs .modifier)

/-- A value after `=`, if there is one. -/
def defaultValue (ends : Bool) : Rule :=
  when (Ahead.both (Ahead.goesOn ends) (Ahead.symbol "=")) (seq [symbol "=", r.anyLevel ends])

def byReference : Rule :=
  node .byReference (seq [symbol "&", r (.variable false)])

def typeBeforeName : Rule :=
  when (Ahead.not (Ahead.oneOf ["$", "&", "..."])) (field .type (type false))

/-- A parameter that declares no property, after its attributes. -/
def plainParameter (before : List Node) : Rule :=
  andThen (seq [typeBeforeName, referenceMark]) fun nodes =>
    let before := before ++ nodes
    firstOf [(Ahead.symbol "...",
        following .other before (seq [symbol "...", field .name variableName]))]
      (following .parameter before (seq [field .name variableName, defaultValue r false]))

/-- What happens when a property is read or written. -/
def hook : Rule :=
  node .other <| seq [
    attributes r, when (Ahead.keyword "final") (takeAs .modifier), referenceMark, name,
    when (Ahead.both (Ahead.goesOn true) (Ahead.symbol "(")) (r .parameters),
    firstOf [
        (Ahead.sectionEnd, nothing),
        (Ahead.symbol "=>", seq [symbol "=>", field .body r.final, semicolon]),
        (Ahead.symbol "\x7b", body r)]
      semicolon]

def hooks : Rule := braced (hook r)

/-- A parameter that declares a property, after its attributes. Its name is one node with its
reference mark. -/
def promotedParameter (before : List Node) : Rule :=
  following .promotedParameter before <| seq [
    visibility, when (Ahead.keyword "readonly") (takeAs .modifier),
    when (Ahead.not (Ahead.oneOf ["$", "&"])) (field .type (type false)),
    field .name (firstOf [(Ahead.symbol "&", byReference r)] variableName),
    defaultValue r false, when (Ahead.symbol "\x7b") (hooks r)]

def parameter : Rule :=
  andThen (attributes r) fun before =>
    firstOf [(Ahead.anyKeyword visibilityWords, promotedParameter r before)]
      (plainParameter r before)

def parameters : Rule :=
  field .parameters (node .other (seq [symbol "(", listUntil ")" (parameter r), symbol ")"]))

/-- A function from its keyword up to its body; `ends` says whether the body may be missing. -/
def functionHeader (ends : Bool) : Rule :=
  seq [keyword "function", referenceMark, field .name name, parameters r, returnType ends]

def capture : Rule :=
  firstOf [(Ahead.symbol "&", node .byReference (seq [symbol "&", variableName]))] variableName

def captures : Rule :=
  node .captures (seq [keyword "use", symbol "(", someUntil ")" capture, symbol ")"])

/-- A function without a name, after its attributes. -/
def functionExpression (ends : Bool) (before : List Node) : Rule :=
  andThen (when (Ahead.keyword "static") (takeAs .modifier)) fun modifier =>
    let before := before ++ modifier
    firstOf [(Ahead.keyword "fn",
        following .arrowFunction before <| seq [
          keyword "fn", referenceMark, parameters r, returnType false, symbol "=>",
          field .body (r.anyLevel ends)])] <|
      following .closure before <| seq [
        keyword "function", referenceMark, parameters r, when (Ahead.keyword "use") captures,
        returnType false, body r]

end Availability.Php.Grammar
