import Availability.Php.Position

/-!
# Grammar rules

A rule reads a source from a position on and yields the nodes it finds, in order, or fails. Rules
decide by what is ahead and never go back, so a failure inside a rule is an error of the source.

A comment belongs to the innermost node that has tokens before and after it: a token yields its
comments before itself, and `wrap` leaves the comments at the front of its nodes outside.
-/
namespace Availability.Php

abbrev Rule := Position → Option (List Node × Position)

namespace Rule

def fail : Rule := fun _ => none

/-- Reads nothing. -/
def nothing : Rule := fun p => some ([], p)

/-- A number of units as a node of the given kind, after the comments before them. -/
def take (kind : Kind) (n : Nat) : Rule := fun p =>
  some (p.gap ++ [.mk kind .none p.next.line (Source.text? (p.next.rest.take n)) []], p.beyond n)

/-- The word or symbol ahead as a node of the given kind. -/
def takeAs (kind : Kind) : Rule := fun p =>
  take kind (if p.word.isEmpty then p.symbol.length else p.word.length) p

def seq : List Rule → Rule
  | [] => nothing
  | r :: rs => fun p =>
    match r p with
    | none => none
    | some (nodes, p) =>
      match seq rs p with
      | none => none
      | some (more, p) => some (nodes ++ more, p)

/-- Chooses the rule by what is ahead. -/
def choose (f : Position → Rule) : Rule := fun p => f p p

/-- The first rule whose condition holds for what is ahead. -/
def firstOf : List ((Position → Bool) × Rule) → Rule → Rule
  | [], otherwise => otherwise
  | (applies, r) :: rest, otherwise => fun p =>
    if applies p then r p else firstOf rest otherwise p

def when (applies : Position → Bool) (r : Rule) : Rule :=
  firstOf [(applies, r)] nothing

/-- A rule that needs a condition to hold for what is ahead. -/
def only (applies : Position → Bool) (r : Rule) : Rule :=
  firstOf [(applies, r)] fail

/-- Repeats a rule while a condition holds. A repetition that reads nothing is a failure. -/
def repeatWhile (applies : Position → Bool) (r : Rule) (p : Position) :
    Option (List Node × Position) :=
  if applies p then
    match r p with
    | none => none
    | some (nodes, rest) =>
      if rest.left < p.left then
        match repeatWhile applies r rest with
        | none => none
        | some (more, rest) => some (nodes ++ more, rest)
      else none
  else some ([], p)
termination_by p.left

/-- Extends nodes from the left: as long as a continuation applies to what is ahead, it is given the
nodes read so far and yields the nodes that replace them. -/
def extend (next? : List Node → Position → Option Rule) (nodes : List Node) (p : Position) :
    Option (List Node × Position) :=
  match next? nodes p with
  | none => some (nodes, p)
  | some r =>
    match r p with
    | none => none
    | some (nodes, rest) =>
      if rest.left < p.left then extend next? nodes rest else none
termination_by p.left

/-- Goes on from the nodes of a rule. -/
def andThen (r : Rule) (next : List Node → Rule) : Rule := fun p =>
  match r p with
  | none => none
  | some (nodes, rest) => next nodes rest

/-- Nodes that have been read already. -/
def given (nodes : List Node) : Rule := fun p => some (nodes, p)

/-- A node around the given nodes, on the line of the first; comments at their front stay
outside. -/
def wrap (kind : Kind) (nodes : List Node) : List Node :=
  match nodes.dropWhile Node.isExtra with
  | [] => nodes
  | first :: rest =>
    nodes.takeWhile Node.isExtra ++ [.mk kind .none first.line none (first :: rest)]

/-- Changes the nodes that a rule reads. -/
def mapNodes (f : List Node → List Node) (r : Rule) : Rule := fun p =>
  (r p).map fun (nodes, rest) => (f nodes, rest)

/-- A node of the given kind around what a rule reads. -/
def node (kind : Kind) (r : Rule) : Rule :=
  mapNodes (wrap kind) r

/-- What a rule reads as one node that is known by its text. -/
def spelled (kind : Kind) (r : Rule) : Rule := fun p =>
  (r p).map fun (_, rest) =>
    (p.gap ++ [.mk kind .none p.next.line (Source.text? (p.next.upTo rest.last)) []], rest)

/-- Gives a role to the nodes that are no comments. -/
def mark (role : Role) (nodes : List Node) : List Node :=
  nodes.map fun n => if n.isExtra then n else n.withRole role

/-- What a rule reads, with a role. -/
def field (role : Role) (r : Rule) : Rule :=
  mapNodes (mark role) r

/-- What a rule reads, if its nodes meet a condition. -/
def such (accepts : List Node → Bool) (r : Rule) : Rule :=
  andThen r fun nodes => if accepts nodes then given nodes else fail

end Rule

/-! Conditions on what is ahead. -/
namespace Ahead

def symbol (s : String) (p : Position) : Bool :=
  p.symbol == s

def oneOf (symbols : List String) (p : Position) : Bool :=
  symbols.contains p.symbol

/-- A word that equals a keyword in any case. -/
def keyword (s : String) (p : Position) : Bool :=
  p.keyword == s

def anyKeyword (words : List String) (p : Position) : Bool :=
  words.contains p.keyword

/-- A word in exactly this spelling. -/
def exactly (s : String) (p : Position) : Bool :=
  p.word == s

def name (p : Position) : Bool :=
  !p.word.isEmpty

/-- A condition on what follows the word or symbol ahead. -/
def second (applies : Position → Bool) (p : Position) : Bool :=
  applies p.second

def both (f g : Position → Bool) (p : Position) : Bool :=
  f p && g p

def not (f : Position → Bool) (p : Position) : Bool :=
  !f p

/-- The end of a PHP section ends a statement. -/
def sectionEnd (p : Position) : Bool :=
  p.endsSection

/-- Whether what is ahead can belong to what has been read: where a statement may end, the end of a
PHP section ends it. -/
def goesOn (ends : Bool) (p : Position) : Bool :=
  !(ends && p.endsSection)

end Ahead

namespace Rule

def symbol (s : String) : Rule := only (Ahead.symbol s) (takeAs .token)

def keyword (s : String) : Rule := only (Ahead.keyword s) (takeAs .token)

/-- A symbol as a node of a kind of its own. -/
def symbolAs (s : String) (kind : Kind) : Rule := only (Ahead.symbol s) (takeAs kind)

/-- Any word as a name. -/
def name : Rule := only Ahead.name (takeAs .name)

/-- A variable with a plain name. -/
def variableName : Rule :=
  spelled .variable (seq [symbol "$", name])

/-- A semicolon, or the end of a PHP section in its place. -/
def semicolon : Rule :=
  firstOf [(Ahead.sectionEnd, nothing)] (symbol ";")

def optional (s : String) : Rule := when (Ahead.symbol s) (symbol s)

/-- Items with commas between them, at least one; `ends` says whether a statement may end after
them. -/
def commaSeparated (ends : Bool) (item : Rule) : Rule :=
  seq [item,
    repeatWhile (Ahead.both (Ahead.goesOn ends) (Ahead.symbol ",")) (seq [symbol ",", item])]

/-- At least one item, with commas between and possibly after them, up to a closing symbol that is
not read. -/
def someUntil (close : String) (item : Rule) : Rule :=
  seq [item, repeatWhile (Ahead.symbol ",") <| seq [
    symbol ",", when (Ahead.not (Ahead.symbol close)) item]]

/-- Items with commas between and possibly after them, or a comma alone, up to a closing symbol that
is not read. -/
def listUntil (close : String) (item : Rule) : Rule :=
  firstOf [(Ahead.symbol close, nothing), (Ahead.symbol ",", symbol ",")] (someUntil close item)

end Rule

end Availability.Php
