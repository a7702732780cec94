import Availability.Php.Grammar.Goal

/-!
# Quoted texts

Double-quoted texts, shell commands and here-documents hold characters that stand for themselves,
escapes, plain variables with at most one index or property, and expressions in braces. What stands
for itself is measured first; what stops it says which part comes next.
-/
namespace Availability.Php.Grammar

open Rule

/-- What surrounds a text. -/
inductive Quote where
  | double
  | shell
  /-- A line with a label ends the text. -/
  | label (word : List Char)

namespace Quote

def isLabel : Quote → Bool
  | label _ => true
  | _ => false

/-- Whether a character ends a run of characters that stand for themselves. -/
def stops (q : Quote) (u : Option Char) : Bool :=
  match q with
  | double => u == some '"'
  | shell => u == some '\x60'
  | label _ => Source.isLineBreak u

/-- Whether a backslash and a character are an escape; two backslashes are none in a
here-document. -/
def escapes (q : Quote) (c : Char) : Bool :=
  match q with
  | shell => c == '\x60' || common c
  | double => common c
  | label _ => c != '\\' && common c
where
  common (c : Char) : Bool :=
    ['n', 'r', 't', 'v', 'e', 'f', '\\', '$', '"', 'u'].contains c || ('0' ≤ c && c ≤ '7')

/-- The number of characters that stand for themselves together at the front of a source; none where
something else comes next. After a plain variable that is also an index or a property. -/
def ownLength (q : Quote) (afterVariable : Bool) : Source → Nat
  | [] => 0
  | some '\\' :: rest =>
    match rest with
    | some '{' :: _ => 2
    | some 'x' :: rest => if rest.head?.any Source.isHexDigit then 0 else 2
    | some c :: _ => if q.escapes c then 0 else if c == '\\' then 2 else 1
    | _ => 1
  | some '$' :: rest =>
    if rest.head?.any fun u => Source.isLabelStart u || u == some '{' then 0 else 1
  | some '-' :: some '>' :: rest =>
    if !afterVariable then 1 else if rest.head?.any Source.isLabelChar then 0 else 2
  | some '{' :: rest => if rest.head? == some (some '$') then 0 else 1
  | u :: _ => if q.stops u || (afterVariable && u == some '[') then 0 else 1

/-- The length of a run of characters that stand for themselves, unless the source ends with it. -/
def plainLength? (q : Quote) (afterVariable : Bool) (s : Source) : Option Nat :=
  match s with
  | [] => none
  | u :: rest =>
    match q.ownLength afterVariable (u :: rest) with
    | 0 => some 0
    | n + 1 => (plainLength? q false (rest.drop n)).map (· + (n + 1))
termination_by s.length
decreasing_by simp only [List.length_drop, List.length_cons]; omega

end Quote

/-- The number of characters that two texts have in common at their front. -/
def commonLength : List Char → Source → Nat
  | [], _ => 0
  | _ :: _, [] => 0
  | c :: cs, u :: us => if u == some c then commonLength cs us + 1 else 0

/-- The length of blanks and characters of the label at the front of a line of a here-document;
there is none where the line could close the text. -/
def lineStart? (label : List Char) (s : Source) : Option Nat :=
  let blanks := s.runLength Source.isPlainBlank
  let line : Source := s.drop blanks
  let same := commonLength label line
  let rest : Source := line.drop same
  let follows (u : Option Char) : Bool := u == some ';' || u == some ',' || u == some ')'
  if same == label.length && rest.head?.any fun u => Source.isPlainBlank u || follows u then
    let more := rest.runLength fun u => Source.isPlainBlank u && !Source.isLineBreak u
    if (rest.drop more).head?.any fun u => Source.isLineBreak u || follows u then none
    else some (blanks + same + more)
  else some (blanks + same)

/-- The length of the characters that stand for themselves at the front of a source, if there are
any. -/
def contentLength? (q : Quote) (afterVariable : Bool) (s : Source) : Option Nat :=
  let start? :=
    match q with
    | .label word => lineStart? word s
    | _ => some 0
  match start? with
  | none => none
  | some start =>
    match q.plainLength? afterVariable (s.drop start) with
    | none => none
    | some n => if start + n == 0 then none else some (start + n)

/-- The length of a line of a here-document that embeds nothing. -/
def lineLength? (label : List Char) (s : Source) : Option Nat :=
  match lineStart? label s with
  | none => none
  | some start =>
    let rest : Source := s.drop start
    let n := start + rest.runLength fun u => !Source.isLineBreak u
    if n == 0 || (s.drop n).isEmpty then none else some n

/-- The length of an escape. -/
def escapeLength (s : Source) : Nat :=
  match s with
  | some '\\' :: some 'x' :: rest => 2 + min 2 (Source.runLength Source.isHexDigit rest)
  | some '\\' :: some 'u' :: some '{' :: rest =>
    let digits := Source.runLength Source.isHexDigit rest
    if digits != 0 && (rest.drop digits).head? == some (some '}') then digits + 4 else 2
  | some '\\' :: rest => 1 + max 1 (min 3 (Source.runLength Source.isOctalDigit rest))
  | _ => 0

/-- The length of blanks and the label of a here-document, if they come next. -/
def labelLength? (label : List Char) (s : Source) : Option Nat :=
  let blanks := s.runLength Source.isPlainBlank
  let rest : Source := s.drop blanks
  let word := rest.takeWhile Source.isLabelChar
  if word == label.map some then some (blanks + word.length) else none

/-- The place of the line break that blanks and comments lead to. The budget bounds the number of
comments. -/
def lineBreak? (budget : Nat) (c : Cursor) : Option Cursor :=
  match budget with
  | 0 => none
  | budget + 1 =>
    let c := c.advance (c.rest.runLength fun u => Source.isBlank u && !Source.isLineBreak u)
    if c.rest.head?.any Source.isLineBreak then some c
    else
      match c.rest.commentLength? with
      | none => none
      | some n => lineBreak? budget (c.advance n)

/-- The place after a line break. -/
def afterBreak (c : Cursor) : Cursor :=
  match c.rest with
  | some '\r' :: some '\n' :: _ => c.advance 2
  | _ => c.advance 1

/-- Where reading stands inside of a quoted text. -/
structure Inside where
  cursor : Cursor
  /-- Whether a plain variable stands right before. -/
  afterVariable : Bool
  closedTexts : Nat

variable (r : Rules)

def integer : Rule := choose fun p =>
  match p.next.rest.integerLength with
  | 0 => fail
  | n => take .other n

/-- The index after a plain variable in a quoted text: an integer, a name or a variable. -/
def plainIndex : Rule :=
  seq [
    symbol "[",
    firstOf [
        (Ahead.symbol "$", variableName),
        (Ahead.name, name),
        (Ahead.symbol "-", seq [symbol "-", integer])]
      integer,
    symbol "]"]

/-- A plain variable in a quoted text with the index or the property after it. -/
def plainVariable (s : Inside) : Option Inside :=
  match variableName (.after s.cursor s.closedTexts) with
  | none => none
  | some (_, p) =>
    match p.last.rest with
    | some '[' :: _ =>
      (plainIndex (.after p.last s.closedTexts)).map fun (_, p) =>
        ⟨p.last, false, s.closedTexts⟩
    | some '-' :: some '>' :: rest =>
      if rest.head?.any Source.isLabelChar then
        match Source.nameLength rest with
        | 0 => none
        | n => some ⟨p.last.advance (n + 2), false, s.closedTexts⟩
      else some ⟨p.last, true, s.closedTexts⟩
    | _ => some ⟨p.last, true, s.closedTexts⟩

/-- An expression in braces after an opening. No here-document with a body may close inside of an
expression that another one embeds. -/
def embedded (q : Quote) (opening : List Rule) (s : Inside) : Option (List Node × Inside) :=
  match seq (opening ++ [r.whole, symbol "\x7d"]) (.after s.cursor s.closedTexts) with
  | none => none
  | some (nodes, p) =>
    if q.isLabel && p.closedTexts != s.closedTexts then none
    else some (nodes, ⟨p.last, false, p.closedTexts⟩)

/-- The next part of a quoted text. -/
def part (q : Quote) (s : Inside) : Option (List Node × Inside) :=
  match contentLength? q s.afterVariable s.cursor.rest with
  | some n => some ([], ⟨s.cursor.advance n, false, s.closedTexts⟩)
  | none =>
    match s.cursor.rest with
    | some '\\' :: _ =>
      some ([], ⟨s.cursor.advance (escapeLength s.cursor.rest), false, s.closedTexts⟩)
    | some '$' :: some '{' :: _ => embedded r q [symbol "$", symbol "\x7b"] s
    | some '$' :: _ => (plainVariable s).map fun s => ([], s)
    | some '{' :: _ => embedded r q [symbol "\x7b"] s
    | _ => none

/-- The parts of a quoted text, as many as there are. -/
def parts (q : Quote) (s : Inside) : List Node × Inside :=
  match part r q s with
  | none => ([], s)
  | some (nodes, next) =>
    if next.cursor.left < s.cursor.left then
      let (more, last) := parts q next
      (nodes ++ more, last)
    else ([], s)
termination_by s.cursor.left

/-- A node from the position on up to a place. -/
def quotedNode (kind : Kind) (p : Position) (nodes : List Node) (stop : Cursor) :
    List Node :=
  p.gap ++ [.mk kind .none p.next.line (Source.text? (p.next.upTo stop)) nodes]

/-- A text between two quotes, of which the first takes a number of units. -/
def quotedText (q : Quote) (kind : Kind) (opening : Nat) : Rule := fun p =>
  let (nodes, s) := parts r q ⟨p.next.advance opening, false, p.closedTexts⟩
  if s.cursor.rest.head?.any q.stops then
    let stop := s.cursor.advance 1
    some (quotedNode kind p nodes stop, .after stop s.closedTexts)
  else none

/-- The lines of a here-document that embeds nothing, as many as there are. -/
def plainLines (label : List Char) (c : Cursor) : Cursor :=
  match lineLength? label c.rest with
  | none => c
  | some n =>
    let next := c.advance n
    if next.left < c.left then plainLines label next else c
termination_by c.left

/-- The place after the label that closes a here-document. -/
def closing? (label : List Char) (c : Cursor) : Option Cursor :=
  (labelLength? label c.rest).map c.advance

/-- The closing of a here-document on a line of its own. -/
def closingLine? (label : List Char) (c : Cursor) : Option Cursor :=
  match lineBreak? (c.left + 1) c with
  | none => none
  | some _ => closing? label c

/-- The place after the label of a here-document without a body, or the place of its body. A text
without a body may close on the same line. -/
def emptyOrBody? (label : List Char) (c : Cursor) : Option (Cursor ⊕ Cursor) :=
  match closing? label c with
  | some stop => some (.inl stop)
  | none =>
    match lineBreak? (c.left + 1) c with
    | none => none
    | some line =>
      match closing? label line with
      | some stop => some (.inl stop)
      | none => some (.inr (afterBreak line))

/-- A here-document after its label. -/
def embeddingDocument (label : List Char) (p : Position) (c : Cursor) :
    Option (List Node × Position) :=
  let c := if c.rest.head? == some (some '"') then c.advance 1 else c
  match emptyOrBody? label c with
  | none => none
  | some (.inl stop) => some (quotedNode .hereDocument p [] stop, .after stop p.closedTexts)
  | some (.inr body) =>
    let (nodes, s) := parts r (.label label) ⟨body, false, p.closedTexts⟩
    if s.cursor.left == body.left then none
    else
      (closingLine? label s.cursor).map fun stop =>
        (quotedNode .hereDocument p nodes stop, .after stop (s.closedTexts + 1))

/-- A here-document that embeds nothing, after its label. -/
def plainDocument (label : List Char) (p : Position) (c : Cursor) :
    Option (List Node × Position) :=
  if c.rest.head? != some (some '\x27') then none
  else
    let stop? :=
      match emptyOrBody? label (c.advance 1) with
      | none => none
      | some (.inl stop) => some stop
      | some (.inr body) => closingLine? label (plainLines label body)
    stop?.map fun stop => (quotedNode .hereDocument p [] stop, .after stop p.closedTexts)

def hereDocument : Rule := fun p =>
  let opening := p.beyond 3
  let quoted := Ahead.oneOf ["\"", "\x27"] opening
  let start := (if quoted then opening.beyond 1 else opening).next
  let label := (start.rest.takeWhile Source.isLabelChar).filterMap id
  let c := start.advance label.length
  if label.isEmpty then none
  else if Ahead.symbol "\x27" opening then plainDocument label p c
  else embeddingDocument r label p c

end Availability.Php.Grammar
