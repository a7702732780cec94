import Availability.Yaml.Scalar

/-!
# YAML tokens

Indentation is turned into tokens that open and close blocks. What may be a key is remembered, since
only the colon after it tells: the key, and the block it opens, then stand before it.
-/
namespace Availability.Yaml

inductive Token where
  | documentStart
  | documentEnd
  | blockSequenceStart
  | blockMappingStart
  | blockEnd
  | flowSequenceStart
  | flowSequenceEnd
  | flowMappingStart
  | flowMappingEnd
  | blockEntry
  | flowEntry
  | key
  | value
  | scalar (plain : Bool) (text : String)
  deriving DecidableEq

namespace Token

/-- What may be a key. -/
structure KeyStart where
  /-- Whether there has to be a key, since a block mapping goes on here. -/
  required : Bool
  /-- The number of tokens before it. -/
  position : Nat
  line : Nat
  column : Nat
  index : Nat

/-- The longest that a key on one line may be. -/
def longestKey : Nat := 1024

structure State where
  cursor : Cursor
  tokens : List Token := []
  /-- The indentations of the open blocks, innermost first. -/
  indents : List Nat := []
  /-- What may be a key on each level of flow collections, innermost first. -/
  keys : List (Option KeyStart) := [none]
  /-- Whether a key may start here. -/
  keyAllowed : Bool := true

namespace State

def inFlow (s : State) : Bool := 1 < s.keys.length

/-- The indentation of the innermost block. -/
def indent (s : State) : Option Nat := s.indents.head?

def emit (s : State) (t : Token) : State := { s with tokens := s.tokens ++ [t] }

/-- Puts a token before others. -/
def insert (s : State) (position : Nat) (t : Token) : State :=
  { s with tokens := s.tokens.take position ++ t :: s.tokens.drop position }

def skip (s : State) (n : Nat) : State := { s with cursor := s.cursor.skip n }

/-- Passes over blanks, comments and line breaks. A tab does not count as a blank where a key may
start. -/
def toToken : Nat → State → State
  | 0, s => s
  | fuel + 1, s =>
    let c := if s.cursor.column == 0 && s.cursor.hasAt 0 (Char.ofNat 0xFEFF) then s.cursor.next
      else s.cursor
    let c := c.skipWhile fun ch => ch == ' ' || ((s.inFlow || !s.keyAllowed) && ch == '\t')
    let c := if c.startsWith '#' then c.skipWhile (fun ch => !isBreak ch) else c
    if c.rest.head?.any isBreak then
      toToken fuel { s with cursor := c.next, keyAllowed := s.keyAllowed || !s.inFlow }
    else { s with cursor := c }

/-- Forgets what may have been a key on the innermost level. -/
def dropKey (s : State) : Option State :=
  match s.keys with
  | some k :: rest => if k.required then none else some { s with keys := none :: rest }
  | _ => some s

/-- Forgets keys that would end on another line or be too long. -/
def dropStaleKeys (s : State) : Option State :=
  let stale (k : KeyStart) : Bool :=
    k.line < s.cursor.line || k.index + longestKey < s.cursor.index
  if s.keys.any (fun k => k.any fun k => stale k && k.required) then none
  else some { s with keys := s.keys.map fun k => k.filter fun k => !stale k }

/-- Remembers that a key may start here. -/
def saveKey (s : State) : Option State :=
  if s.keyAllowed then
    match s.dropKey with
    | none => none
    | some s =>
      let c := s.cursor
      let k : KeyStart :=
        ⟨!s.inFlow && s.indent == some c.column, s.tokens.length, c.line, c.column, c.index⟩
      some { s with keys := some k :: s.keys.tail }
  else some s

/-- Opens a block at a column unless one of that indentation is open. -/
def openBlock (s : State) (column position : Nat) (t : Token) : State :=
  if s.inFlow || !s.indent.all (· < column) then s
  else { s.insert position t with indents := column :: s.indents }

/-- Closes the blocks of greater indentation; `none` closes all. -/
def closeBlocks (column : Option Nat) (s : State) : State :=
  if s.inFlow then s
  else
    let closed := s.indents.takeWhile fun n => column.all (· < n)
    { s with
      tokens := s.tokens ++ List.replicate closed.length .blockEnd
      indents := s.indents.drop closed.length }

/-- A mark between documents. -/
def documentMark (s : State) (t : Token) : Option State :=
  ((s.closeBlocks none).dropKey).map fun s => { (s.emit t).skip 3 with keyAllowed := false }

def openFlow (s : State) (t : Token) : Option State :=
  s.saveKey.map fun s =>
    { (s.emit t).skip 1 with keys := none :: s.keys, keyAllowed := true }

def closeFlow (s : State) (t : Token) : Option State :=
  s.dropKey.map fun s =>
    { (s.emit t).skip 1 with
      keys := if s.inFlow then s.keys.tail else s.keys
      keyAllowed := false }

def flowSeparator (s : State) : Option State :=
  s.dropKey.map fun s => { (s.emit .flowEntry).skip 1 with keyAllowed := true }

def sequenceDash (s : State) : Option State :=
  if !s.inFlow && !s.keyAllowed then none
  else
    let s := s.openBlock s.cursor.column s.tokens.length .blockSequenceStart
    s.dropKey.map fun s => { (s.emit .blockEntry).skip 1 with keyAllowed := true }

def keyMark (s : State) : Option State :=
  if !s.inFlow && !s.keyAllowed then none
  else
    let s := s.openBlock s.cursor.column s.tokens.length .blockMappingStart
    s.dropKey.map fun s => { (s.emit .key).skip 1 with keyAllowed := !s.inFlow }

def valueMark (s : State) : Option State :=
  match s.keys with
  | some k :: rest =>
    let s := (s.insert k.position .key).openBlock k.column k.position .blockMappingStart
    some { (s.emit .value).skip 1 with keys := none :: rest, keyAllowed := false }
  | _ =>
    if !s.inFlow && !s.keyAllowed then none
    else
      let s := s.openBlock s.cursor.column s.tokens.length .blockMappingStart
      some { (s.emit .value).skip 1 with keyAllowed := !s.inFlow }

def scalarToken (s : State) (plain : Bool) (keyAllowed : Bool) (found : Scanned) : State :=
  { s.emit (.scalar plain (String.ofList found.text)) with
    cursor := found.after
    keyAllowed }

def quoted (s : State) (quote : Char) : Option State := do
  let s ← s.saveKey
  return s.scalarToken false false (← quotedScalar quote s.cursor)

def block (s : State) : Option State := do
  let s ← s.dropKey
  return s.scalarToken false true (← blockScalar s.indent s.cursor)

def plain (s : State) : Option State := do
  let s ← s.saveKey
  let found ← plainScalar s.inFlow ((s.indent.map (· + 1)).getD 0) s.cursor
  return s.scalarToken true found.broken found

/-- Characters with a meaning of their own at the start of a token. -/
def indicators : List Char :=
  [',', '[', ']', '{', '}', '#', '&', '*', '!', '|', '>', '\x27', '"', '%', '@', '\x60']

/-- Whether a plain scalar starts with a character. -/
def startsPlain (s : State) (c : Char) : Bool :=
  if c == '-' then !s.cursor.rest.tail.head?.any isBlank
  else if c == '?' || c == ':' then !s.inFlow && !s.cursor.spaceAt 1
  else !isSpace c && !indicators.contains c

/-- The next token, from its first character. Aliases, anchors, tags and directives are refused. -/
def token (s : State) (c : Char) : Option State :=
  if s.cursor.hasMark '-' then s.documentMark .documentStart
  else if s.cursor.hasMark '.' then s.documentMark .documentEnd
  else
    match c with
    | '[' => s.openFlow .flowSequenceStart
    | '{' => s.openFlow .flowMappingStart
    | ']' => s.closeFlow .flowSequenceEnd
    | '}' => s.closeFlow .flowMappingEnd
    | ',' => s.flowSeparator
    | '\x27' => s.quoted c
    | '"' => s.quoted c
    | _ =>
      if c == '-' && s.cursor.spaceAt 1 then s.sequenceDash
      else if c == '?' && (s.inFlow || s.cursor.spaceAt 1) then s.keyMark
      else if c == ':' && (s.inFlow || s.cursor.spaceAt 1) then s.valueMark
      else if (c == '|' || c == '>') && !s.inFlow then s.block
      else if s.startsPlain c then s.plain
      else none

/-- All tokens up to the end of the text. -/
def finish : Nat → State → Option (List Token)
  | 0, _ => none
  | fuel + 1, s => do
    let s ← (s.toToken (s.cursor.rest.length + 1)).dropStaleKeys
    let s := s.closeBlocks (some s.cursor.column)
    match s.cursor.rest with
    | [] => (← (s.closeBlocks none).dropKey).tokens
    | c :: _ => finish fuel (← s.token c)

end State

/-- The tokens of a text. -/
def ofText? (text : String) : Option (List Token) :=
  if text.toList.all isAllowed then
    let cs := normalizeEndings text.toList
    State.finish (cs.length + 1) { cursor := { rest := cs } }
  else none

end Token

end Availability.Yaml
