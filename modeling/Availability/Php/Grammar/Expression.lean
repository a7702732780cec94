import Availability.Php.Grammar.Operand

/-!
# Expressions

Binary operators have a level; a higher level binds more strongly. An assignment is read as soon as
its target stands before it, whatever operator stands before the target, and so is a test for a
class.
-/
namespace Availability.Php.Grammar

open Rule

/-- The levels of operators that are named elsewhere. -/
def assignmentLevel : Nat := 4
def conditionalLevel : Nat := 5
def signLevel : Nat := 19
def suppressionLevel : Nat := 21

/-- An operator between two operands: its symbol, the number of its characters, its level, and
whether it groups to the right. -/
structure Operator where
  symbol : String
  length : Nat
  level : Nat
  toRight : Bool := false

/-- Longer symbols that have no meaning between operands stand for their first character. -/
def operators : List Operator := [
  ⟨"??", 2, 6, true⟩, ⟨"||", 2, 7, false⟩, ⟨"&&", 2, 8, false⟩, ⟨"|", 1, 9, false⟩,
  ⟨"^", 1, 10, false⟩, ⟨"&", 1, 11, false⟩, ⟨"==", 2, 12, false⟩, ⟨"!=", 2, 12, false⟩,
  ⟨"<>", 2, 12, false⟩, ⟨"===", 3, 12, false⟩, ⟨"!==", 3, 12, false⟩, ⟨"<=>", 3, 12, false⟩,
  ⟨"<", 1, 13, false⟩, ⟨">", 1, 13, false⟩, ⟨"<=", 2, 13, false⟩, ⟨">=", 2, 13, false⟩,
  ⟨".", 1, 14, false⟩, ⟨"...", 1, 14, false⟩, ⟨"<<", 2, 15, false⟩, ⟨">>", 2, 15, false⟩,
  ⟨"+", 1, 16, false⟩, ⟨"++", 1, 16, false⟩, ⟨"-", 1, 16, false⟩, ⟨"--", 1, 16, false⟩,
  ⟨"*", 1, 17, false⟩, ⟨"/", 1, 17, false⟩, ⟨"%", 1, 17, false⟩, ⟨"**", 2, 18, true⟩]

def wordOperators : List Operator :=
  [⟨"or", 2, 1, false⟩, ⟨"xor", 3, 2, false⟩, ⟨"and", 3, 3, false⟩]

/-- The operator ahead. -/
def operator? (p : Position) : Option Operator :=
  if p.word.isEmpty then operators.find? (·.symbol == p.symbol)
  else wordOperators.find? (·.symbol == p.keyword)

def augmentedAssignments : List String :=
  ["**=", "*=", "/=", "%=", "+=", "-=", ".=", "<<=", ">>=", "&=", "^=", "|=", "??="]

variable (r : Rules)

def conditionalRest (ends : Bool) : Rule :=
  seq [symbol "?", when (Ahead.not (Ahead.symbol ":")) r.whole, symbol ":",
    r (.expression ⟨conditionalLevel + 1, ends⟩)]

/-- The operator ahead with its right operand, if it binds strongly enough. -/
def combinedNext (place : Place) (nodes : List Node) (p : Position) : Option Rule :=
  if !Ahead.goesOn place.ends p then none
  else if Ahead.symbol "?" p then
    if place.level ≤ conditionalLevel then
      some (following .other nodes (conditionalRest r place.ends))
    else none
  else
    match operator? p with
    | none => none
    | some op =>
      if place.level ≤ op.level then
        let right := if op.toRight then op.level else op.level + 1
        some (following .other nodes
          (seq [take .token op.length, r (.expression ⟨right, place.ends⟩)]))
      else none

/-- All operators after an operand that bind strongly enough. -/
def combined (place : Place) (nodes : List Node) : Rule :=
  extend (combinedNext r place) nodes

/-- A test for a class after an operand, if it is ahead, and the operators after it. -/
def tested (place : Place) (nodes : List Node) : Rule :=
  firstOf [(Ahead.both (Ahead.goesOn place.ends) (Ahead.keyword "instanceof"),
      andThen (following .other nodes (seq [takeAs .token, classReference r place.ends]))
        (combined r place))]
    (combined r place nodes)

/-- Whether brackets hold nothing, so that nothing tells an array from a pattern. -/
def isBare (n : Node) : Bool :=
  n.children.all fun c => c.isExtra || c.text == "[" || c.text == "]"

/-- An assignment to what has been read, if its sign is ahead. A section that ends after brackets
ends a statement with an array, and none with a pattern. -/
def assignment? (place : Place) (nodes : List Node) (p : Position) : Option Rule :=
  let stored := nodes.getLast?.any isVariable
  let either := nodes.getLast?.any (·.kind == .arrayOrPattern)
  let pattern := isPattern nodes || (either && !nodes.getLast?.any isBare)
  let becomes (kind : Kind) (sign : List Rule) : Option Rule :=
    some <| following kind (mark .left nodes) <|
      seq (sign ++ [field .right (r (.expression ⟨assignmentLevel, place.ends⟩))])
  if !Ahead.goesOn place.ends p && !pattern then none
  else if Ahead.symbol "=" p && (stored || either || pattern) then
    if Ahead.second (Ahead.symbol "&") p then
      becomes .referenceAssignment [symbol "=", symbol "&"]
    else becomes .assignment [symbol "="]
  else if Ahead.oneOf augmentedAssignments p && stored then becomes .other [takeAs .token]
  else none

/-- What follows an operand. A pattern needs an assignment. -/
def afterOperand (place : Place) (nodes : List Node) : Rule := choose fun p =>
  match assignment? r place nodes p with
  | some rule => andThen rule (combined r place)
  | none =>
    if isPattern nodes then fail else tested r place nodes

/-- Whether an operand follows `yield`: a point alone is an operator there. -/
def yieldsValue (p : Position) : Bool :=
  if p.word.isEmpty then
    Ahead.oneOf ["$", "(", "[", "\"", "\x27", "\x60", "<<<", "&", "!", "~", "+", "-", "++", "--",
      "@", "#[", "\\"] p || 1 < p.next.rest.numberLength ||
      (p.next.rest.numberLength == 1 && p.symbol.isEmpty)
  else !Ahead.anyKeyword ["and", "or", "xor", "as", "instanceof"] p

def yieldExpression (ends : Bool) : Rule :=
  let value := firstOf [(Ahead.symbol "&", byReference r)] (r.anyLevel ends)
  node .other <| seq [
    keyword "yield",
    firstOf [
        (Ahead.not (Ahead.both (Ahead.goesOn ends) yieldsValue), nothing),
        (Ahead.keyword "from", seq [keyword "from", r.anyLevel ends])] <|
      node .other <| seq [
        value,
        when (Ahead.both (Ahead.goesOn ends) (Ahead.symbol "=>")) (seq [symbol "=>", value])]]

def counted (ends : Bool) : Rule :=
  node .other (seq [takeAs .token, r (.variable ends)])

def signed (ends : Bool) : Rule :=
  node .other (seq [takeAs .token, r (.expression ⟨signLevel + 1, ends⟩)])

/-- An operand with what is applied to it. -/
def primary (ends : Bool) : Rule :=
  firstOf [
      (Ahead.oneOf ["++", "--"], counted r ends),
      (castAhead, andThen (cast (r (.variable ends))) (updated ends))] <|
    such (!isPattern ·) <|
      andThen (andThen (operand r .primary ends) (applications r ends)) (updated ends)

def cloned (ends : Bool) : Rule :=
  node .clone (seq [keyword "clone", r (.primary ends)])

/-- An expression without its warnings. -/
def suppressed (ends : Bool) : Rule :=
  node .other (seq [symbol "@", r (.expression ⟨suppressionLevel, ends⟩)])

/-- What a cast applies to; of the files that are run only included ones can be cast. -/
def castValue (ends : Bool) : Rule :=
  firstOf [
      (Ahead.symbol "@", suppressed r ends),
      (Ahead.anyKeyword ["include", "include_once"], leading r ends)]
    (r (.unary ends))

/-- What comes before an operand or is one, with what is applied to it. -/
def unaryOperand (reach : Reach) (ends : Bool) : Rule :=
  firstOf [
      (Ahead.oneOf ["!", "~", "+", "-"], signed r ends),
      (Ahead.oneOf ["++", "--"], counted r ends),
      (castAhead, cast (castValue r ends)),
      (Ahead.keyword "clone", cloned r ends)] <|
    andThen (andThen (operand r reach ends) (applications r ends)) (updated ends)

def unary (ends : Bool) : Rule := such (!isPattern ·) (unaryOperand r .unary ends)

def includeWords : List String := ["include", "include_once", "require", "require_once"]

def expression (place : Place) : Rule :=
  firstOf [
      (Ahead.symbol "@", andThen (suppressed r place.ends) (combined r place)),
      (Ahead.keyword "yield", andThen (yieldExpression r place.ends) (combined r place)),
      (Ahead.anyKeyword includeWords, andThen (leading r place.ends) (combined r place)),
      (Ahead.keyword "match", andThen (matchExpression r) (combined r place))] <|
    andThen (unaryOperand r .expression place.ends) (afterOperand r place)

/-- An expression, or a pattern that no assignment follows. -/
def expressionOrPattern (brackets lists : Bool) : Rule :=
  let place : Place := ⟨0, false⟩
  let orExpression (nodes : List Node) : Rule :=
    firstOf [(Ahead.symbol "=", afterOperand r place nodes)] <|
      if isPattern nodes then given nodes
      else andThen (andThen (applications r false nodes) (updated false)) (afterOperand r place)
  firstOf [
      (fun p => brackets && Ahead.symbol "[" p, andThen (bracketed r) orExpression),
      (fun p => lists && Ahead.keyword "list" p, andThen (listPattern r) orExpression)]
    r.whole

end Availability.Php.Grammar
