import Availability.Yaml.Cursor

/-!
# YAML scalars

Plain, quoted and block scalars. A single line break inside a scalar is folded to a blank, except in
literal blocks; further line breaks stay. Each reader gives the text and where it goes on.
-/
namespace Availability.Yaml

/-- The text of line breaks, of which the first is folded if it is a line feed. -/
private def foldBreaks : List Char → List Char
  | [] => []
  | '\n' :: [] => [' ']
  | '\n' :: more => more
  | breaks => breaks

/-- The text that blanks and line breaks inside a scalar stand for. Blanks around line breaks do not
count. -/
def foldSpace (run : List Char) : List Char :=
  match run.filter isBreak with
  | [] => run
  | breaks => foldBreaks breaks

/-- Whether a tab stands in the indentation of a line after the first. -/
private def tabInIndent (indent : Nat) : Bool → Nat → List Char → Bool
  | _, _, [] => false
  | broken, column, c :: cs =>
    if isBreak c then tabInIndent indent true 0 cs
    else (broken && column < indent && c == '\t') || tabInIndent indent broken (column + 1) cs

/-- The start of a plain scalar up to a blank or what ends it. In flow collections a colon must not
stand directly before an indicator. -/
def plainWord (inFlow : Bool) : List Char → Option (List Char)
  | [] => some []
  | c :: cs =>
    if isSpace c then some []
    else if c == ':' && cs.head?.all isSpace then some []
    else if inFlow && c == ':' && cs.head?.any [',', '?', '[', ']', '{', '}'].contains then none
    else if inFlow && [',', '[', ']', '{', '}'].contains c then some []
    else (plainWord inFlow cs).map (c :: ·)

/-- A scalar that was read. -/
structure Scanned where
  text : List Char
  after : Cursor
  /-- Whether a line break was passed after the text. -/
  broken : Bool := false

/-- The rest of a plain scalar: `text` was read, and `space` stands between it and what follows. -/
def plainRest (inFlow : Bool) (indent : Nat) : Nat → List Char → List Char → Bool → Cursor →
    Option Scanned
  | 0, _, _, _, _ => none
  | fuel + 1, text, space, broken, c =>
    if c.atDocumentMark || c.startsWith '#' then some ⟨text, c, broken⟩
    else
      match plainWord inFlow c.rest with
      | none => none
      | some word =>
        let (text, broken) :=
          if word.isEmpty then (text, broken) else (text ++ space ++ word, false)
        let c := c.skip word.length
        let run := c.takeWhile isSpace
        if run.isEmpty then some ⟨text, c, broken⟩
        else if tabInIndent indent broken c.column run then none
        else
          let c := c.skip run.length
          let broken := run.any isBreak
          if !inFlow && c.column < indent then some ⟨text, c, broken⟩
          else plainRest inFlow indent fuel text (foldSpace run) broken c

/-- A plain scalar; its lines after the first have at least the given indentation. -/
def plainScalar (inFlow : Bool) (indent : Nat) (c : Cursor) : Option Scanned :=
  plainRest inFlow indent (c.rest.length + 1) [] [] false c

private def hexValue? (c : Char) : Option Nat :=
  if c.isDigit then some (c.toNat - '0'.toNat)
  else if 'a' ≤ c && c ≤ 'f' then some (c.toNat - 'a'.toNat + 10)
  else if 'A' ≤ c && c ≤ 'F' then some (c.toNat - 'A'.toNat + 10)
  else none

private def hexNumber? (digits : List Char) : Option Nat :=
  digits.foldlM (fun n c => (hexValue? c).map (n * 16 + ·)) 0

/-- The character with a code, if there is one. -/
private def charOfCode? (length : Nat) (cs : List Char) : Option (Char × Nat) :=
  if cs.length < length then none
  else
    match hexNumber? (cs.take length) with
    | none => none
    | some n =>
      if (0xD800 ≤ n && n ≤ 0xDFFF) || 0x10FFFF < n then none else some (Char.ofNat n, length)

/-- The character that an escape stands for, and its length after the backslash. -/
def escape? : List Char → Option (Char × Nat)
  | [] => none
  | c :: cs =>
    let coded (length : Nat) : Option (Char × Nat) :=
      (charOfCode? length cs).map fun (ch, n) => (ch, n + 1)
    match c with
    | '0' => some ('\x00', 1)
    | 'a' => some ('\x07', 1)
    | 'b' => some ('\x08', 1)
    | 't' => some ('\t', 1)
    | '\t' => some ('\t', 1)
    | 'n' => some ('\n', 1)
    | 'v' => some ('\x0b', 1)
    | 'f' => some ('\x0c', 1)
    | 'r' => some ('\r', 1)
    | 'e' => some ('\x1b', 1)
    | ' ' => some (' ', 1)
    | '"' => some ('"', 1)
    | '/' => some ('/', 1)
    | '\\' => some ('\\', 1)
    | 'N' => some (Char.ofNat 0x85, 1)
    | '_' => some (Char.ofNat 0xA0, 1)
    | 'L' => some (Char.ofNat 0x2028, 1)
    | 'P' => some (Char.ofNat 0x2029, 1)
    | 'x' => coded 2
    | 'u' => coded 4
    | 'U' => coded 8
    | _ => none

/-- The rest of a quoted scalar, up to its closing quote. -/
def quotedRest (close : Char) : Nat → List Char → Cursor → Option Scanned
  | 0, _, _ => none
  | fuel + 1, text, c =>
    if c.atDocumentMark then none
    else
      match c.rest with
      | [] => none
      | ch :: more =>
        if isSpace ch then
          let run := c.takeWhile isSpace
          quotedRest close fuel (text ++ foldSpace run) (c.skip run.length)
        else if ch == close then
          if close == '\x27' && more.head? == some close then
            quotedRest close fuel (text ++ [close]) (c.skip 2)
          else some { text, after := c.next }
        else if ch == '\\' && close == '"' then
          if more.head?.any isBreak then
            let c := c.skip 2
            let run := c.takeWhile isSpace
            quotedRest close fuel (text ++ run.filter isBreak) (c.skip run.length)
          else
            match escape? more with
            | none => none
            | some (meant, length) => quotedRest close fuel (text ++ [meant]) (c.skip (length + 1))
        else quotedRest close fuel (text ++ [ch]) c.next

/-- A quoted scalar, from its opening quote on. -/
def quotedScalar (quote : Char) (c : Cursor) : Option Scanned :=
  quotedRest quote (c.rest.length + 1) [] c.next

/-- What becomes of the line breaks at the end of a block. -/
inductive Chomping where
  | clip
  | strip
  | keep
  deriving DecidableEq

structure BlockHeader where
  chomping : Chomping := .clip
  /-- The indentation beyond that of the surroundings, if it is given. -/
  indent : Option Nat := none

private def chomping? : List Char → Option Chomping
  | '+' :: _ => some .keep
  | '-' :: _ => some .strip
  | _ => none

private def increment? : List Char → Option Nat
  | c :: _ => if c.isDigit then some (c.toNat - '0'.toNat) else none
  | [] => none

/-- The indicators of a block, in either order, and their number. -/
private def blockHeader (cs : List Char) : BlockHeader × Nat :=
  match chomping? cs, increment? cs with
  | some chomping, _ =>
    match increment? cs.tail with
    | some n => (⟨chomping, some n⟩, 2)
    | none => (⟨chomping, none⟩, 1)
  | none, some n =>
    match chomping? cs.tail with
    | some chomping => (⟨chomping, some n⟩, 2)
    | none => (⟨.clip, some n⟩, 1)
  | none, none => ({}, 0)

/-- The indentation and blank lines before a line of a block: their line breaks, the widest
indentation, and where the line starts. A tab must not stand in the indentation. While the
indentation of the block is unknown all blanks belong to it. -/
def blockBreaks (indent : Option Nat) : Nat → List Char → Nat → Cursor →
    Option (List Char × Nat × Cursor)
  | 0, _, _, _ => none
  | fuel + 1, breaks, widest, c =>
    let blanks := (c.takeWhile (· == ' ')).length
    let c := c.skip (match indent with
      | none => blanks
      | some n => min blanks (n - c.column))
    let widest := max widest c.column
    if indent.all (c.column < ·) && c.startsWith '\t' then none
    else
      match c.rest with
      | [] => some (breaks, widest, c)
      | ch :: _ =>
        if isBreak ch then blockBreaks indent fuel (breaks ++ [ch]) widest c.next
        else some (breaks, widest, c)

/-- The lines of a block. `lineBreak` ends the line before, `breaks` has the blank lines after it,
and `indented` tells whether it starts with a blank. -/
def blockLines (literal : Bool) (indent : Nat) : Nat → List Char → List Char → List Char → Bool →
    Cursor → Option (List Char × List Char × List Char × Cursor)
  | 0, _, _, _, _, _ => none
  | fuel + 1, text, lineBreak, breaks, indented, c =>
    if c.column != indent || c.rest.isEmpty then some (text, lineBreak, breaks, c)
    else
      let starts := c.rest.head?.any isBlank
      let join :=
        if !literal && lineBreak == ['\n'] && !indented && !starts then
          if breaks.isEmpty then [' '] else []
        else lineBreak
      let line := c.takeWhile fun ch => !isBreak ch
      let c := c.skip line.length
      let ending := c.rest.take 1
      match blockBreaks (some indent) (c.rest.length + 1) [] 0 c.next with
      | none => none
      | some (more, _, after) =>
        blockLines literal indent fuel (text ++ join ++ breaks ++ line) ending more starts after

/-- A block scalar, from its indicator on; `outer` is the indentation around it, if any. -/
def blockScalar (outer : Option Nat) (c : Cursor) : Option Scanned :=
  let literal := c.startsWith '|'
  let (header, indicators) := blockHeader c.rest.tail
  let c := (c.skip (indicators + 1)).skipWhile isBlank
  let c := if c.startsWith '#' then c.skipWhile (fun ch => !isBreak ch) else c
  if header.indent == some 0 || c.rest.head?.any (fun ch => !isBreak ch) then none
  else
    let c := c.next
    let fixed := header.indent.map (outer.getD 0 + ·)
    match blockBreaks fixed (c.rest.length + 1) [] 0 c with
    | none => none
    | some (breaks, widest, c) =>
      let indent := fixed.getD (max widest (max ((outer.map (· + 1)).getD 0) 1))
      match blockLines literal indent (c.rest.length + 1) [] [] breaks false c with
      | none => none
      | some (text, lineBreak, breaks, after) =>
        let ending := match header.chomping with
          | .strip => []
          | .clip => lineBreak
          | .keep => lineBreak ++ breaks
        some { text := text ++ ending, after }

end Availability.Yaml
