import Availability.Text.Ranges

/-!
# Places in a YAML text

Line endings are line feeds before anything is read; the line and paragraph separators stay and end
lines as well.
-/
namespace Availability.Yaml

/-- The characters that a text may have. -/
def isAllowed (c : Char) : Bool :=
  let n := c.toNat
  n == 0x9 || n == 0xA || n == 0xD || (0x20 ≤ n && n ≤ 0x7E) || n == 0x85 ||
    (0xA0 ≤ n && n ≤ 0xFFFD) || 0x10000 ≤ n

/-- Line endings as line feeds. -/
def normalizeEndings : List Char → List Char
  | [] => []
  | '\r' :: '\n' :: cs => '\n' :: normalizeEndings cs
  | '\r' :: cs => '\n' :: normalizeEndings cs
  | c :: cs => (if c.toNat == 0x85 then '\n' else c) :: normalizeEndings cs

def isBreak (c : Char) : Bool :=
  c == '\n' || c.toNat == 0x2028 || c.toNat == 0x2029

def isBlank (c : Char) : Bool := c == ' ' || c == '\t'

def isSpace (c : Char) : Bool := isBlank c || isBreak c

/-- The rest of a text, and where it starts. -/
structure Cursor where
  rest : List Char
  line : Nat := 0
  column : Nat := 0
  /-- The number of characters before. -/
  index : Nat := 0

namespace Cursor

def next (c : Cursor) : Cursor :=
  match c.rest with
  | [] => c
  | ch :: rest =>
    if isBreak ch then ⟨rest, c.line + 1, 0, c.index + 1⟩
    else ⟨rest, c.line, c.column + 1, c.index + 1⟩

/-- Goes on by a number of characters. -/
def skip : Nat → Cursor → Cursor
  | 0, c => c
  | n + 1, c => skip n c.next

/-- The characters in front that satisfy a predicate. -/
def takeWhile (c : Cursor) (p : Char → Bool) : List Char := c.rest.takeWhile p

def skipWhile (c : Cursor) (p : Char → Bool) : Cursor :=
  c.skip (c.takeWhile p).length

/-- Whether a character stands at a distance. -/
def hasAt (c : Cursor) (n : Nat) (ch : Char) : Bool := c.rest[n]? == some ch

def startsWith (c : Cursor) (ch : Char) : Bool := c.hasAt 0 ch

/-- Whether a blank, a line break or the end of the text stands at a distance. -/
def spaceAt (c : Cursor) (n : Nat) : Bool :=
  match c.rest[n]? with
  | none => true
  | some ch => isSpace ch

/-- Whether a line starts here with a mark of three equal characters that stands alone. -/
def hasMark (c : Cursor) (ch : Char) : Bool :=
  c.column == 0 && c.hasAt 0 ch && c.hasAt 1 ch && c.hasAt 2 ch && c.spaceAt 3

/-- Whether a document starts or ends here. -/
def atDocumentMark (c : Cursor) : Bool := c.hasMark '-' || c.hasMark '.'

end Cursor

end Availability.Yaml
