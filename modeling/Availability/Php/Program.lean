import Availability.Php.Grammar.Statement

/-!
# Programs

`parse?` reads a source into a tree; it fails for a source that is no program. What works on trees
takes its parser as an argument.
-/
namespace Availability.Php

namespace Grammar

/-- The rule for a goal, on top of rules for what is nested in it. -/
def rule (r : Rules) : Rules
  | .expression place => expression r place
  | .unary ends => unary r ends
  | .primary ends => primary r ends
  | .variable ends => storable r ends
  | .expressionOrPattern brackets lists => expressionOrPattern r brackets lists
  | .parameters => parameters r
  | .traitMethod => traitMethod r
  | .statement => statement r

/-- Rules for sources that nest at most to a depth. -/
def rules : Nat → Rules
  | 0 => fun _ => Rule.fail
  | depth + 1 => fun goal => rule (rules depth) goal

/-- Statements up to the end of the source, with the comments before it. -/
def program (r : Rules) : Rule :=
  Rule.andThen (Rule.repeatWhile (fun p => !p.atEnd) r.statement) fun nodes p =>
    if p.atEnd then some (nodes ++ p.gap, p) else none

end Grammar

/-- A program without statements. -/
def emptyProgram : Node := .mk .program .none 1 none []

/-- The tree of a source. Every level of nesting reads something within four steps, so the length of
the source bounds the depth that the rules need. -/
def parse? (s : Source) : Option Node :=
  let start : Cursor := ⟨s, s.length, 1⟩
  let c := start.advance s.leadingLength
  match c.rest.openTagLength with
  | 0 => if c.rest.isEmpty then some emptyProgram else none
  | n =>
    let start := Position.after (c.advance n) 0
    (Grammar.program (Grammar.rules (5 * c.left + 8)) start).map fun (nodes, _) =>
      .mk .program .none 1 none nodes

/-- The tree of a source; nothing is found in a source that is no program. -/
def parse (s : Source) : Node :=
  (parse? s).getD emptyProgram

/-- The tree of the bytes of a file. -/
def parseBytes (bytes : Text.Bytes) : Node :=
  parse (Text.units bytes)

/-- What a parser makes of a source. -/
structure Parsed where
  tree : Node
  /-- Whether the source is a program; the tree of another one is what could be made of it. -/
  sound : Bool

/-- A parser of files; it may have no tree for a source. -/
abbrev Parser := Text.Bytes → Option Parsed

/-- The parser by this grammar. -/
def parser : Parser := fun bytes =>
  some ⟨parseBytes bytes, (parse? (Text.units bytes)).isSome⟩

end Availability.Php
