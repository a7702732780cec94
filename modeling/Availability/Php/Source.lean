import Availability.Text.Utf8

/-!
# Sources

A source is a list of characters with holes where bytes are not UTF-8. The functions here measure
what a source starts with: blanks, comments, names, numbers, symbols, quoted texts and the text
outside of PHP sections. A NUL character ends comments and quoted texts as no character does; a hole
is taken like any other character there.
-/
namespace Availability.Php

abbrev Source := List (Option Char)

namespace Source

/-- Blanks between any two tokens. -/
def isBlank (u : Option Char) : Bool :=
  match u with
  | none => false
  | some c =>
    let n := c.toNat
    (9 ≤ n && n ≤ 13) || n == 0x20 || n == 0xA0 || n == 0x200B || n == 0x2060 || n == 0xFEFF

/-- Blanks in and around here-documents and outside of PHP sections. -/
def isPlainBlank (u : Option Char) : Bool :=
  match u with
  | none => false
  | some c => (9 ≤ c.toNat && c.toNat ≤ 13) || c == ' '

def isLineBreak (u : Option Char) : Bool :=
  u == some '\n' || u == some '\r'

/-- Names have letters beyond ASCII up to U+FFFF. -/
def isNameStart (u : Option Char) : Bool :=
  match u with
  | none => false
  | some c => c.isAlpha || c == '_' || (0x80 ≤ c.toNat && c.toNat ≤ 0xFFFF && !isBlank u)

def isDigit (u : Option Char) : Bool :=
  match u with
  | none => false
  | some c => c.isDigit

def isNameChar (u : Option Char) : Bool :=
  isNameStart u || isDigit u

/-- The characters of labels and of what may follow `->` in a quoted text. -/
def isLabelChar (u : Option Char) : Bool :=
  match u with
  | none => false
  | some c => c.isAlphanum || c == '_'

/-- What may follow `$` in a quoted text. -/
def isLabelStart (u : Option Char) : Bool :=
  isLabelChar u && !isDigit u

def isOctalDigit (u : Option Char) : Bool :=
  match u with
  | none => false
  | some c => '0' ≤ c && c ≤ '7'

def isBinaryDigit (u : Option Char) : Bool :=
  u == some '0' || u == some '1'

def isHexDigit (u : Option Char) : Bool :=
  match u with
  | none => false
  | some c => c.isDigit || ('a' ≤ c && c ≤ 'f') || ('A' ≤ c && c ≤ 'F')

/-- Whether a source starts with the given characters. -/
def startsWith : List Char → Source → Bool
  | [], _ => true
  | _ :: _, [] => false
  | c :: cs, u :: us => u == some c && startsWith cs us

/-- The number of units at the front of a source for which a condition holds. -/
def runLength (p : Option Char → Bool) (s : Source) : Nat :=
  (s.takeWhile p).length

/-- The length of the name that a source starts with. -/
def nameLength (s : Source) : Nat :=
  if s.head?.any isNameStart then runLength isNameChar s else 0

/-- The length of a line comment after its opening: it ends before a line break and before the end
of the section; a question mark takes the character after it along. -/
def lineCommentLength : Source → Nat
  | [] => 0
  | some '\n' :: _ => 0
  | some '\r' :: _ => 0
  | some '\x00' :: _ => 0
  | some '?' :: some '\n' :: _ => 2
  | some '?' :: some '\r' :: some '\n' :: _ => 3
  | some '?' :: some '\r' :: _ => 0
  | some '?' :: some '>' :: _ => 0
  | some '?' :: some '\x00' :: _ => 0
  | [some '?'] => 0
  | some '?' :: _ :: rest => lineCommentLength rest + 2
  | _ :: rest => lineCommentLength rest + 1

/-- The length of a block comment after its opening, with the closing. -/
def blockCommentLength? : Source → Option Nat
  | [] => none
  | some '*' :: some '/' :: _ => some 2
  | some '\x00' :: _ => none
  | _ :: rest => (blockCommentLength? rest).map (· + 1)

/-- The length of the comment that a source starts with. A `#` before a bracket opens attributes,
and one before a question mark is a comment of its own. -/
def commentLength? (s : Source) : Option Nat :=
  match s with
  | some '/' :: some '/' :: rest => some (lineCommentLength rest + 2)
  | some '/' :: some '*' :: rest => (blockCommentLength? rest).map (· + 2)
  | some '#' :: rest =>
    match rest with
    | some '[' :: _ => none
    | some '?' :: _ => some 1
    | _ => some (lineCommentLength rest + 1)
  | _ => none

/-- The length of a single-quoted text after its opening, with the closing. -/
def singleQuotedLength? : Source → Option Nat
  | [] => none
  | some '\x27' :: _ => some 1
  | some '\x00' :: _ => none
  | some '\\' :: some '\x00' :: _ => none
  | some '\\' :: _ :: rest => (singleQuotedLength? rest).map (· + 2)
  | _ :: rest => (singleQuotedLength? rest).map (· + 1)

private def isLetter (u : Option Char) (c : Char) : Bool :=
  match u with
  | none => false
  | some d => d.toLower == c

/-- The length of the opening tag that a source starts with. -/
def openTagLength : Source → Nat
  | some '<' :: some '?' :: some '=' :: _ => 3
  | some '<' :: some '?' :: a :: b :: c :: _ =>
    if isLetter a 'p' && isLetter b 'h' && isLetter c 'p' then 5 else 2
  | some '<' :: some '?' :: _ => 2
  | _ => 0

/-- The length of the text before the first PHP section. -/
def leadingLength : Source → Nat
  | [] => 0
  | some '<' :: some '?' :: _ => 0
  | some '\x00' :: _ => 0
  | _ :: rest => leadingLength rest + 1

/-- Whether nothing follows up to the end but blanks and lines that start with two slashes. -/
def endsInLineComments (inComment : Bool) : Source → Bool
  | [] => true
  | u :: rest =>
    if inComment then
      if u == some '\n' then endsInLineComments false rest
      else u != some '\x00' && endsInLineComments true rest
    else if isPlainBlank u then endsInLineComments false rest
    else
      match u, rest with
      | some '/', some '/' :: rest => endsInLineComments true rest
      | _, _ => false

/-- The length of the text between two PHP sections. What could be line comments up to the end of
the source is text, whatever it holds, where the text starts and after a `<`. -/
def outsideLength (fresh : Bool) (s : Source) : Nat :=
  if fresh && endsInLineComments false s then s.length
  else
    match s with
    | [] => 0
    | some '<' :: some '?' :: _ => 0
    | some '\x00' :: _ => 0
    | u :: rest => outsideLength (u == some '<') rest + 1

/-- The length of the end of a section with the text and the opening tag after it. -/
def sectionLength? (s : Source) : Option Nat :=
  match s with
  | some '?' :: some '>' :: rest =>
    let text := outsideLength true rest
    let after := rest.drop text
    let tag := openTagLength after
    if tag == 0 && !after.isEmpty then none else some (2 + text + tag)
  | _ => none

/-- The length of digits in groups with one underscore between them; a group may be missing before
the first underscore. -/
def groupsLength (digit : Option Char → Bool) : Source → Nat
  | [] => 0
  | u :: rest =>
    if digit u || (u == some '_' && rest.head?.any digit) then groupsLength digit rest + 1 else 0

/-- Digits that start with one, after a number of units. -/
private def digitsAfter (n : Nat) (digit : Option Char → Bool) (s : Source) : Nat :=
  if (s.drop n).head?.any digit then n + groupsLength digit (s.drop n) else 0

/-- The length of the integer that a source starts with. -/
def integerLength (s : Source) : Nat :=
  match s with
  | some '0' :: rest =>
    let octal :=
      if rest.head?.any fun u => u == some 'o' || u == some 'O' then
        2 + groupsLength isOctalDigit rest.tail
      else 1 + groupsLength isOctalDigit rest
    match rest with
    | some x :: _ =>
      if x == 'x' || x == 'X' then max octal (digitsAfter 2 isHexDigit s)
      else if x == 'b' || x == 'B' then max octal (digitsAfter 2 isBinaryDigit s)
      else octal
    | _ => octal
  | _ => digitsAfter 0 isDigit s

/-- The length of the exponent that a source starts with. -/
def exponentLength (s : Source) : Nat :=
  match s with
  | some e :: rest =>
    if e == 'e' || e == 'E' then
      if rest.head?.any fun u => u == some '+' || u == some '-' then digitsAfter 2 isDigit s
      else digitsAfter 1 isDigit s
    else 0
  | _ => 0

/-- The length of the number with a point or an exponent that a source starts with. No digit is
needed beside a point. -/
def floatLength (s : Source) : Nat :=
  let whole := groupsLength isDigit s
  match s.drop whole with
  | some '.' :: fraction =>
    let digits := groupsLength isDigit fraction
    whole + 1 + digits + exponentLength (fraction.drop digits)
  | rest =>
    match exponentLength rest with
    | 0 => 0
    | n => whole + n

/-- The length of the number that a source starts with, if it is no part of a longer name. -/
def numberLength (s : Source) : Nat :=
  let n := max (integerLength s) (floatLength s)
  if n < nameLength s then 0 else n

/-- Symbols, longer ones before their starts. -/
def symbols : List String :=
  ["<=>", "**=", "...", "<<<", "<<=", ">>=", "===", "!==", "??=", "?->",
    "++", "--", "->", "=>", "::", "==", "!=", "<>", "<=", ">=", "&&", "||", "??", "+=", "-=", "*=",
    "/=", ".=", "%=", "&=", "|=", "^=", "**", "<<", ">>", "#[",
    "+", "-", "*", "/", "%", "=", "<", ">", "!", "~", "&", "|", "^", ".", ",", ";", ":", "?", "@",
    "(", ")", "[", "]", "\x7b", "\x7d", "$", "\\", "\"", "\x27", "\x60"]

/-- Symbols with their characters. -/
private def spelledSymbols : List (List Char × String) :=
  symbols.map fun s => (s.toList, s)

/-- The longest symbol that a source starts with. -/
def symbolAt? (s : Source) : Option String :=
  (spelledSymbols.find? fun symbol => startsWith symbol.1 s).map (·.2)

/-- The text of a source, if it is UTF-8. -/
def text? (s : Source) : Option String :=
  (Text.allChars? s).map String.ofList

/-- The number of line feeds. -/
def lineFeeds (s : Source) : Nat :=
  s.countP (· == some '\n')

end Source

end Availability.Php
