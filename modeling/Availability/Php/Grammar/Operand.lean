import Availability.Php.Grammar.Declaration
import Availability.Php.Grammar.Quoted

/-!
# Operands

Operands and what is applied to them: indices, members, arguments. Which words start an operand
depends on the place; where a word has no meaning of its own it is a name.
-/
namespace Availability.Php.Grammar

open Rule

/-- How much of an expression a place admits, from little to much. -/
inductive Reach where
  /-- What a value can be stored in. -/
  | variable
  /-- An operand with what is applied to it. -/
  | primary
  /-- An operand with what stands before it, too. -/
  | unary
  | expression
  deriving DecidableEq

variable (r : Rules)

def parenthesized : Rule :=
  node .parenthesized (seq [symbol "(", r.whole, symbol ")"])

def condition : Rule := field .condition (parenthesized r)

def inBraces : Rule :=
  seq [symbol "\x7b", r.whole, symbol "\x7d"]

/-- A variable, with a plain or a computed name. -/
def anyVariable : Rule :=
  firstOf [(Ahead.both (Ahead.symbol "$") (Ahead.second Ahead.name), variableName)] <|
    node .place <| seq [
      repeatWhile (Ahead.both (Ahead.symbol "$") (Ahead.second (Ahead.symbol "$"))) (symbol "$"),
      firstOf [(Ahead.second (Ahead.symbol "\x7b"), seq [symbol "$", inBraces r])] variableName]

/-- Whether a value can be stored in a node. -/
def isVariable (n : Node) : Bool :=
  n.kind == .variable || n.kind == .place || n.kind == .castPlace || n.isCall

def lastKind (nodes : List Node) : Kind :=
  (nodes.getLast?.map Node.kind).getD .other

def elementValue (brackets lists : Bool) : Rule :=
  firstOf [(Ahead.symbol "&", byReference r)] (r (.expressionOrPattern brackets lists))

/-- Whether what has been read can only be a pattern. -/
def isPattern (nodes : List Node) : Bool :=
  lastKind nodes == .arrayPattern || lastKind nodes == .listPattern

/-- An element of an array or a pattern. Only a value can be a pattern, not a key. -/
def element (brackets lists : Bool) : Rule :=
  andThen (elementValue r brackets lists) fun first =>
    firstOf [(Ahead.symbol "=>",
        if isPattern first || lastKind first == .byReference then fail
        else following .element first (seq [symbol "=>", elementValue r brackets lists]))]
      (given (wrap .element first))

/-- Items with commas between them; items may be missing. -/
def slotted (close : String) (item : Rule) : Rule :=
  let present := when (Ahead.not (Ahead.oneOf [",", close])) item
  seq [present, repeatWhile (Ahead.symbol ",") (seq [symbol ",", present])]

/-- The items between commas, nothing where one is missing. -/
def slots (nodes : List Node) : List (Option Node) :=
  nodes.foldr (fun n rest =>
    if n.isExtra then rest
    else if n.isNamed then some n :: rest.tail
    else if n.text == "," then none :: rest
    else rest) [none]

/-- What an element stores or is stored in. -/
def valueKind (n : Node) : Option Kind :=
  if n.kind == .element then n.children.getLast?.map Node.kind else none

/-- Whether an item can stand in a pattern in brackets. A cast stores nothing there. -/
def isTarget (n : Node) : Bool :=
  n.kind == .element && n.children.getLast?.any fun value =>
    (isVariable value && value.kind != .castPlace) || value.kind == .byReference ||
      value.kind == .arrayPattern || value.kind == .arrayOrPattern

/-- What items in brackets are: no item of an array is missing, except after the last comma, and all
items of a pattern are targets. -/
def bracketedKind? (items : List (Option Node)) : Option Kind :=
  let filled := items.dropLast.all Option.isSome || (items.length == 2 && items.all Option.isNone)
  let isArray := filled && !items.any (·.any fun n => valueKind n == some .arrayPattern)
  match isArray, items.all fun item => item.all isTarget with
  | true, true => some .arrayOrPattern
  | true, false => some .array
  | false, true => some .arrayPattern
  | false, false => none

/-- An array or a pattern in brackets. -/
def bracketed : Rule :=
  let item := firstOf [(Ahead.symbol "...", unpacked r)] (element r true false)
  andThen (seq [symbol "[", slotted "]" item, symbol "]"]) fun nodes =>
    match bracketedKind? (slots nodes) with
    | none => fail
    | some kind => given (wrap kind nodes)

/-- Whether an item can stand in a pattern after `list`. -/
def isListTarget (n : Node) : Bool :=
  n.children.getLast?.any fun value =>
    isVariable value || value.kind == .byReference || value.kind == .listPattern

/-- A pattern after its keyword. -/
def listPattern : Rule :=
  andThen (seq [keyword "list", symbol "(", slotted ")" (element r false true), symbol ")"])
    fun nodes =>
      if (slots nodes).all fun item => item.all isListTarget then given (wrap .listPattern nodes)
      else fail

/-- An array after its keyword. -/
def wordedArray : Rule :=
  let item := firstOf [(Ahead.symbol "...", unpacked r)] (element r false false)
  node .array (seq [keyword "array", symbol "(", listUntil ")" item, symbol ")"])

def matchArm : Rule :=
  node .other <|
    firstOf [(Ahead.keyword "default", seq [keyword "default", symbol "=>", r.whole])]
      (seq [someUntil "=>" r.whole, symbol "=>", r.whole])

def matchExpression : Rule :=
  node .other <| seq [
    keyword "match", condition r,
    node .other (seq [symbol "\x7b", listUntil "\x7d" (matchArm r), symbol "\x7d"])]

/-- The name of a member: a word, a variable or a computed name in braces. -/
def memberName : Rule :=
  firstOf [(Ahead.symbol "\x7b", seq [symbol "\x7b", field .name r.whole, symbol "\x7d"]),
      (Ahead.name, field .name name)]
    (field .name (anyVariable r))

def indexAhead : Position → Bool :=
  Ahead.oneOf ["[", "#["]

/-- An index. No attributes can follow an operand, so a `#` before the bracket is a comment. -/
def index : Rule :=
  seq [
    when (Ahead.symbol "#[") (take .comment 1),
    symbol "[", when (Ahead.not (Ahead.symbol "]")) r.whole, symbol "]"]

/-- What may follow a variable that names a class. -/
def classVariableNext (ends : Bool) (nodes : List Node) (p : Position) : Option Rule :=
  if !Ahead.goesOn ends p then none
  else if indexAhead p then some (following .place nodes (index r))
  else if Ahead.oneOf ["->", "?->"] p then
    some (following .place nodes (seq [takeAs .token, memberName r]))
  else if Ahead.symbol "::" p then
    some (following .place nodes (seq [takeAs .token, anyVariable r]))
  else none

/-- The class of an object that is created or tested. -/
def classReference (ends : Bool) : Rule :=
  firstOf [
      (Ahead.symbol "$", andThen (anyVariable r) (extend (classVariableNext r ends))),
      (Ahead.symbol "(", parenthesized r)] <|
    andThen (anyName ends) fun nodes =>
      firstOf [(Ahead.both (Ahead.goesOn ends) (Ahead.symbol "::"),
          andThen (following .place nodes (seq [symbol "::", anyVariable r]))
            (extend (classVariableNext r ends)))]
        (given nodes)

def anonymousAhead (p : Position) : Bool :=
  Ahead.symbol "#[" p ||
    Ahead.anyKeyword ("class" :: visibilityWords ++ ["final", "abstract", "readonly", "var"]) p ||
    Ahead.both (Ahead.keyword "static")
      (Ahead.second (Ahead.anyKeyword ("class" :: visibilityWords ++ modifierWords))) p

def objectCreation (ends : Bool) : Rule :=
  node .objectCreation <| seq [
    keyword "new",
    firstOf [(anonymousAhead, anonymousClass r)] <|
      seq [classReference r ends,
        when (Ahead.both (Ahead.goesOn ends) (Ahead.symbol "(")) (arguments r)]]

/-- `self`, `parent` or `static` before what is applied to it. -/
def scopeWord : Rule :=
  firstOf [
      (Ahead.second (Ahead.symbol "::"), takeAs .relativeScope),
      (Ahead.second (Ahead.oneOf ["(", "->", "?->", "[", "#["]), name)]
    fail

/-- Whether a node is such a word, after which no statement ends. -/
def isScopeWord (n : Node) : Bool :=
  n.kind == .relativeScope || (n.kind == .name && (n.text == "self" || n.text == "parent" ||
    n.text.toList.map Position.foldLetter == "static".toList))

/-- Whether a quoted text with a letter before it is ahead. -/
def letteredAhead (quote : Char) (p : Position) : Bool :=
  Ahead.keyword "b" p && (p.next.rest.drop 1).head? == some (some quote)

def singleQuoted (start : Nat) : Rule := choose fun p =>
  match Source.singleQuotedLength? (p.next.rest.drop start) with
  | none => fail
  | some n => take .singleQuoted (start + n)

def numberAhead (p : Position) : Bool :=
  p.next.rest.numberLength != 0

def number : Rule := choose fun p => take .other p.next.rest.numberLength

def functionAhead (p : Position) : Bool :=
  Ahead.anyKeyword ["function", "fn"] p ||
    Ahead.both (Ahead.keyword "static") (Ahead.second (Ahead.anyKeyword ["function", "fn"])) p

/-- A word with an expression after it that reaches as far as possible. -/
def leading (ends : Bool) : Rule :=
  node .other (seq [takeAs .token, r.anyLevel ends])

/-- Words that stand for a value. -/
def literalWords : List String := ["true", "false", "null"]

/-- A value that is written out: a number, a text or a word. -/
def literal : Rule :=
  firstOf [
      (numberAhead, number),
      (Ahead.symbol "\x27", singleQuoted 1),
      (letteredAhead '\x27', singleQuoted 2),
      (Ahead.symbol "\"", quotedText r .double .doubleQuoted 1),
      (letteredAhead '"', quotedText r .double .doubleQuoted 2),
      (Ahead.symbol "<<<", hereDocument r),
      (Ahead.anyKeyword literalWords, takeAs .other)]
    fail

/-- The start of what a value can be stored in. It has no attributes, so a `#` before a bracket is a
comment. -/
def storableOperand (ends : Bool) : Rule :=
  firstOf [
      (Ahead.symbol "$", anyVariable r),
      (Ahead.symbol "#[", seq [take .comment 1, bracketed r]),
      (Ahead.symbol "\x27", singleQuoted 1),
      (letteredAhead '\x27', singleQuoted 2),
      (Ahead.symbol "\"", quotedText r .double .doubleQuoted 1),
      (letteredAhead '"', quotedText r .double .doubleQuoted 2),
      (Ahead.symbol "<<<", hereDocument r),
      (Ahead.symbol "(", parenthesized r),
      (Ahead.symbol "[", bracketed r),
      (Ahead.keyword "array", wordedArray r),
      (Ahead.keyword "new", objectCreation r ends),
      (scopeWordAhead, scopeWord)]
    (anyName ends)

/-- An operand before anything is applied to it. -/
def operand (reach : Reach) (ends : Bool) : Rule :=
  if reach == .variable then storableOperand r ends
  else
    firstOf [
        (numberAhead, number),
        (Ahead.symbol "\x60", quotedText r .shell .other 1),
        (Ahead.symbol "#[", andThen (attributes r) (functionExpression r ends)),
        (functionAhead, functionExpression r ends []),
        (Ahead.anyKeyword literalWords, takeAs .other),
        (Ahead.anyKeyword ["print", "throw"], leading r ends),
        (fun p => reach == .expression && Ahead.keyword "list" p, listPattern r)]
      (storableOperand r ends)

/-- Whether members, indices and arguments can be applied to a node. -/
def isApplicable (n : Node) : Bool :=
  match n.kind with
  | .name | .qualifiedName | .variable | .place | .functionCall | .methodCall | .nullsafeCall
  | .staticCall | .classConstant | .parenthesized | .array | .arrayOrPattern | .singleQuoted
  | .doubleQuoted | .hereDocument => true
  | .objectCreation =>
    n.children.getLast?.any fun c => c.kind == .arguments || c.kind == .anonymousClass
  | _ => false

def memberAccess (ends : Bool) (nodes : List Node) : Rule := fun p =>
  let call := if Ahead.symbol "?->" p then Kind.nullsafeCall else Kind.methodCall
  andThen (seq [given (mark .receiver nodes), takeAs .token, memberName r]) (fun read =>
    firstOf [(Ahead.both (Ahead.goesOn ends) (Ahead.symbol "("),
        following call read (field .arguments (arguments r)))]
      (given (wrap .place read))) p

def scopeAccess (ends : Bool) (nodes : List Node) : Rule := fun p =>
  let access := if Ahead.second (Ahead.symbol "$") p then Kind.place else Kind.classConstant
  andThen (seq [given (mark .scope nodes), takeAs .token, memberName r]) (fun read =>
    firstOf [(Ahead.both (Ahead.goesOn ends) (Ahead.symbol "("),
        following .staticCall read (field .arguments (arguments r)))]
      (given (wrap access read))) p

/-- What may be applied to an operand. -/
def applied (ends : Bool) (nodes : List Node) (p : Position) : Option Rule :=
  let applicable := nodes.getLast?.any isApplicable
  if !Ahead.goesOn ends p && !nodes.getLast?.any isScopeWord then none
  else if Ahead.symbol "::" p && (applicable || lastKind nodes == .relativeScope) then
    some (scopeAccess r ends nodes)
  else if !applicable then none
  else if indexAhead p then some (following .place nodes (index r))
  else if Ahead.oneOf ["->", "?->"] p then some (memberAccess r ends nodes)
  else if Ahead.symbol "(" p then
    some (following .functionCall (mark .callee nodes) (field .arguments (arguments r)))
  else none

/-- All that is applied to an operand. -/
def applications (ends : Bool) (nodes : List Node) : Rule :=
  extend (applied r ends) nodes

/-- What counts a variable up or down after it, if it is ahead. -/
def updated (ends : Bool) (nodes : List Node) : Rule :=
  firstOf [(fun p => Ahead.goesOn ends p && Ahead.oneOf ["++", "--"] p &&
        nodes.getLast?.any isVariable,
      following .other nodes (takeAs .token))]
    (given nodes)

def castWords : List String :=
  ["array", "binary", "bool", "boolean", "double", "int", "integer", "float", "object", "real",
    "string", "unset"]

/-- Whether a cast is ahead: such a word after a parenthesis is always a type, unless it starts an
array. -/
def castAhead : Position → Bool :=
  Ahead.both (Ahead.symbol "(") <| Ahead.second <| Ahead.both (Ahead.anyKeyword castWords) <|
    Ahead.not (Ahead.both (Ahead.keyword "array") (Ahead.second (Ahead.symbol "(")))

/-- A cast of what a rule reads. -/
def cast (value : Rule) : Rule :=
  andThen (seq [symbol "(", takeAs .other, symbol ")", value]) fun nodes =>
    given (wrap (if nodes.getLast?.any isVariable then .castPlace else .other) nodes)

/-- What a value can be stored in. -/
def storable (ends : Bool) : Rule :=
  firstOf [(castAhead, cast (r (.variable ends)))] <|
    such (fun nodes => nodes.getLast?.any isVariable) <|
      andThen (operand r .variable ends) (applications r ends)

/-- A method that a class takes over from a trait: a name, or a member of a class. -/
def traitMethod : Rule :=
  such (fun nodes => lastKind nodes == .name || lastKind nodes == .classConstant) <|
    andThen (operand r .variable false) (applications r false)

end Availability.Php.Grammar
