import Availability.Glob.Pattern

/-!
# Reading path patterns

A pattern is read character by character. Two stars at a slash stand for directories; what they
stand for is settled by the character after them.
-/
namespace Availability.Glob

open Text (Bytes)

inductive Error where
  | unclosedClass
  | invalidRange (lo hi : Char)
  | unclosedGroup
  | unopenedGroup
  | danglingEscape
  deriving DecidableEq

def Error.message : Error → String
  | unclosedClass => "unclosed character class; missing ']'"
  | invalidRange lo hi =>
    "invalid range; '" ++ String.singleton lo ++ "' > '" ++ String.singleton hi ++ "'"
  | unclosedGroup =>
    "unclosed alternate group; missing '\x7d' (maybe escape '\x7b' with '[\x7b]'?)"
  | unopenedGroup =>
    "unopened alternate group; missing '\x7b' (maybe escape '\x7d' with '[\x7d]'?)"
  | danglingEscape => "dangling '\\'"

/-- A class of characters that is being read. -/
structure ClassDraft where
  negated : Bool := false
  /-- The ranges, last first. -/
  ranges : List (Char × Char) := []
  /-- Whether a dash after the last range waits for its end. -/
  dash : Bool := false

/-- What the next character belongs to. -/
inductive Mode where
  | text
  | escape
  /-- The start of a class, where a negation may stand. -/
  | classStart
  /-- The first character of a class, which is taken as it is. -/
  | classFirst (draft : ClassDraft)
  | classBody (draft : ClassDraft)
  /-- After a star, and the character before it. -/
  | star (before : Option Char)
  /-- After two stars. -/
  | stars (before : Option Char)

/-- A group of alternatives that is open: the pieces before it and the alternatives so far, last
first. -/
structure Group where
  before : List Piece
  options : List Pattern

structure State where
  /-- The pieces of the innermost alternative, last first. -/
  pieces : List Piece := []
  groups : List Group := []
  last : Option Char := none
  mode : Mode := .text

namespace State

def push (s : State) (p : Piece) : State :=
  { s with pieces := p :: s.pieces }

/-- The bytes of a character range: a class is a set of bytes, so only the last byte of the lower
end and the first byte of the upper end span a range. -/
def byteRanges (range : Char × Char) : List (UInt8 × UInt8) :=
  let single (b : UInt8) : UInt8 × UInt8 := (b, b)
  let lo := Text.encode (String.singleton range.1)
  let hi := Text.encode (String.singleton range.2)
  if range.1 == range.2 then lo.map single
  else
    match lo.getLast?, hi with
    | some b, c :: cs => lo.dropLast.map single ++ [(b, c)] ++ cs.map single
    | _, _ => []

def closeClass (s : State) (draft : ClassDraft) : State :=
  let ranges := if draft.dash then ('-', '-') :: draft.ranges else draft.ranges
  { s.push (.oneOf draft.negated (ranges.reverse.flatMap byteRanges)) with mode := .text }

/-- A character of a class. -/
def classChar (draft : ClassDraft) (c : Char) : Except Error ClassDraft :=
  match draft.dash, draft.ranges with
  | true, (lo, _) :: rest =>
    if c < lo then .error (.invalidRange lo c)
    else .ok { draft with ranges := (lo, c) :: rest, dash := false }
  | _, ranges => .ok { draft with ranges := (c, c) :: ranges, dash := false }

/-- A character where no star or class is open. -/
def textChar (s : State) (c : Char) : Except Error State :=
  match c with
  | '?' => .ok (s.push .any)
  | '*' => .ok { s with mode := .star s.last }
  | '[' => .ok { s with mode := .classStart }
  | '{' => .ok { s with pieces := [], groups := ⟨s.pieces, []⟩ :: s.groups }
  | '}' =>
    match s.groups with
    | [] => .error .unopenedGroup
    | g :: rest =>
      .ok { s with
        pieces := .choice (s.pieces.reverse :: g.options).reverse :: g.before
        groups := rest }
  | ',' =>
    match s.groups with
    | [] => .ok (s.push (.literal ','))
    | g :: rest =>
      .ok { s with
        pieces := []
        groups := { g with options := s.pieces.reverse :: g.options } :: rest }
  | '\\' => .ok { s with mode := .escape }
  | c => .ok (s.push (.literal c))

/-- Two stars that stand for any bytes. -/
def plainStars (s : State) : State := (s.push .star).push .star

/-- Puts directories in the place of the slash before two stars. -/
def directories (s : State) (p : Piece) : State :=
  match s.pieces with
  | .leadingDirectories :: rest => { s with pieces := .leadingDirectories :: rest }
  | .everythingBelow :: rest => { s with pieces := .everythingBelow :: rest }
  | pieces => { s with pieces := p :: pieces.tail }

/-- What two stars stand for before a character, or at the end of the pattern. The second result
tells whether the character belongs to them. -/
def settleStars (s : State) (before : Option Char) (next : Option Char) : State × Bool :=
  let inGroup := !s.groups.isEmpty
  if s.pieces.isEmpty then
    match next with
    | none => (s.push .leadingDirectories, false)
    | some '/' => (s.push .leadingDirectories, true)
    | some _ => (s.plainStars, false)
  else if before != some '/' && !(inGroup && (before == some ',' || before == some '{')) then
    (s.plainStars, false)
  else
    match next with
    | none => (s.directories .everythingBelow, false)
    | some '/' => (s.directories .innerDirectories, true)
    | some c =>
      if inGroup && (c == ',' || c == '}') then (s.directories .everythingBelow, false)
      else (s.plainStars, false)

/-- One character, by what it belongs to. -/
def consume (s : State) (c : Char) : Except Error State :=
  match s.mode with
  | .text => s.textChar c
  | .escape => .ok { s.push (.literal c) with mode := .text }
  | .classStart =>
    if c == '!' || c == '^' then .ok { s with mode := .classFirst { negated := true } }
    else do return { s with mode := .classBody (← classChar {} c) }
  | .classFirst draft => do return { s with mode := .classBody (← classChar draft c) }
  | .classBody draft =>
    if c == ']' then .ok (s.closeClass draft)
    else if c == '-' && !draft.dash then
      .ok { s with mode := .classBody { draft with dash := true } }
    else do return { s with mode := .classBody (← classChar draft c) }
  | .star before =>
    if c == '*' then .ok { s with mode := .stars before }
    else textChar { s.push .star with mode := .text } c
  | .stars before =>
    let (settled, taken) := { s with mode := .text }.settleStars before (some c)
    if taken then .ok settled else settled.textChar c

def step (s : State) (c : Char) : Except Error State := do
  return { ← s.consume c with last := some c }

/-- The pattern at the end of the text. -/
def finish (s : State) : Except Error Pattern := do
  let s ← match s.mode with
    | .text => .ok s
    | .escape => .error .danglingEscape
    | .classStart => .error .unclosedClass
    | .classFirst _ => .error .unclosedClass
    | .classBody _ => .error .unclosedClass
    | .star _ => .ok (s.push .star)
    | .stars before => .ok (s.settleStars before none).1
  if s.groups.isEmpty then return s.pieces.reverse else .error .unclosedGroup

end State

/-- Reads a pattern. -/
def read (text : String) : Except Error Pattern := do
  (← text.toList.foldlM State.step {}).finish

/-- The text of an error with the pattern that has it. -/
def Error.describe (e : Error) (pattern : String) : String :=
  "error parsing glob '" ++ pattern ++ "': " ++ e.message

end Availability.Glob
