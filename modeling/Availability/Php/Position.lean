import Availability.Php.Node
import Availability.Php.Source

/-!
# Positions

A source is read from the front. A `Cursor` is a place in it; a `Position` is a cursor right after a
token together with the comments and closed sections that follow and with what comes next: a word, a
symbol, or something that is measured where it is read. The same characters can be different tokens
in different places, so nothing is cut into tokens ahead of time.
-/
namespace Availability.Php

/-- A place in a source: what is left of it, how many units that is, and the line it is on. -/
structure Cursor where
  rest : Source
  left : Nat
  line : Nat

namespace Cursor

def advance (c : Cursor) (n : Nat) : Cursor :=
  let taken : Source := c.rest.take n
  { rest := c.rest.drop n, left := c.left - taken.length, line := c.line + taken.lineFeeds }

/-- The source between two places. -/
def upTo (start stop : Cursor) : Source :=
  start.rest.take (start.left - stop.left)

end Cursor

/-- Where reading stands between two tokens. -/
structure Position where
  /-- Right after the last token. -/
  last : Cursor
  /-- The comments and closed sections that follow. -/
  gap : List Node
  /-- Whether a section among them ends a statement. -/
  endsSection : Bool
  /-- Right before the next token. -/
  next : Cursor
  /-- The name ahead, as it is written, or nothing. -/
  word : String
  /-- The name ahead in small letters. -/
  keyword : String
  /-- The symbol ahead, or nothing. -/
  symbol : String
  /-- Whether a statement ends here that an `else` could continue. -/
  openBranch : Bool := false
  /-- An `elseif` with its condition that has been read ahead, the place after it, and the number of
  here-documents that have been closed there. -/
  branch : Option (List Node × Cursor × Nat) := none
  /-- The number of here-documents that have been closed. -/
  closedTexts : Nat

namespace Position

/-- The comments and closed sections at a place, whether one of the sections ends a statement, and
the place after them. Only after plain blanks is the end of a section the end of a statement. The
budget bounds the number of pieces. -/
def skipGap (budget : Nat) (c : Cursor) (gap : List Node) (ends : Bool) :
    List Node × Bool × Cursor :=
  match budget with
  | 0 => (gap.reverse, ends, c)
  | budget + 1 =>
    let plain := c.rest.runLength Source.isPlainBlank
    let blanks := c.rest.runLength Source.isBlank
    let c := c.advance blanks
    let pass (kind : Kind) (ends : Bool) (n : Nat) : List Node × Bool × Cursor :=
      let node := Node.mk kind .none c.line (Source.text? (c.rest.take n)) []
      skipGap budget (c.advance n) (node :: gap) ends
    match c.rest.commentLength? with
    | some n => pass .comment ends n
    | none =>
      match c.rest.sectionLength? with
      | some n => pass .interpolation (ends || plain == blanks) n
      | none => (gap.reverse, ends, c)

/-- Small letters as keywords are compared: the long s and the Kelvin sign count as letters. -/
def foldLetter (c : Char) : Char :=
  if c == '\u017f' then 's' else if c == '\u212a' then 'k' else c.toLower

/-- The position after a token that ends at a place. -/
def after (c : Cursor) (closedTexts : Nat) : Position :=
  let (gap, endsSection, next) := skipGap (c.left + 1) c [] false
  let letters := (next.rest.take next.rest.nameLength).filterMap id
  let symbol := if letters.isEmpty then next.rest.symbolAt?.getD "" else ""
  { last := c, gap, endsSection, next, word := String.ofList letters,
    keyword := String.ofList (letters.map foldLetter), symbol, closedTexts }

/-- The number of units that are left after the last token. -/
def left (p : Position) : Nat := p.last.left

/-- The position after the first units ahead, as if they were a token. -/
def beyond (p : Position) (n : Nat) : Position :=
  after (p.next.advance n) p.closedTexts

/-- The position after the word or symbol ahead. -/
def second (p : Position) : Position :=
  p.beyond (if p.word.isEmpty then p.symbol.length else p.word.length)

def atEnd (p : Position) : Bool :=
  p.next.rest.isEmpty

end Position

end Availability.Php
