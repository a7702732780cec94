import Availability.Json.Value

/-!
# Reading JSON

`read` gives the value at the start of a text and what follows it. After a fault nothing follows.
-/
namespace Availability.Json

namespace Reader

def isBlank (c : Char) : Bool :=
  c == ' ' || c == '\n' || c == '\t' || c == '\r'

def skip (cs : List Char) : List Char :=
  cs.dropWhile isBlank

/-- A fault at the front of a text: the text may end there. -/
def faultAt (cs : List Char) : Fault :=
  if cs.isEmpty then .unfinished else .malformed

def hexValue? (c : Char) : Option Nat :=
  if c.isDigit then some (c.toNat - '0'.toNat)
  else if 'a' ≤ c ∧ c ≤ 'f' then some (c.toNat - 'a'.toNat + 10)
  else if 'A' ≤ c ∧ c ≤ 'F' then some (c.toNat - 'A'.toNat + 10)
  else none

/-- Four hexadecimal digits. The text ends too early if fewer than four bytes are left of it. -/
def hex4 (cs : List Char) : Except Fault (Nat × List Char) :=
  match cs with
  | a :: b :: c :: d :: rest =>
    match hexValue? a, hexValue? b, hexValue? c, hexValue? d with
    | some a, some b, some c, some d => .ok (((a * 16 + b) * 16 + c) * 16 + d, rest)
    | _, _, _, _ => .error .malformed
  | _ =>
    let bytes := cs.foldl (fun n c => n + c.utf8Size) 0
    .error (if bytes < 4 then .unfinished else .malformed)

def simpleEscape? (c : Char) : Option Char :=
  match c with
  | '"' => some '"'
  | '\\' => some '\\'
  | '/' => some '/'
  | 'b' => some '\x08'
  | 'f' => some '\x0c'
  | 'n' => some '\n'
  | 'r' => some '\r'
  | 't' => some '\t'
  | _ => none

def isLowSurrogate (n : Nat) : Bool := 0xDC00 ≤ n && n ≤ 0xDFFF

def isHighSurrogate (n : Nat) : Bool := 0xD800 ≤ n && n ≤ 0xDBFF

/-- A string that has been read. -/
structure Scanned where
  /-- Its characters, or the fault that a reader meets. -/
  text : Except Fault (List Char)
  /-- What follows it, or the fault that whoever passes over it meets. -/
  rest : Except Fault (List Char)

namespace Scanned

def fault (f : Fault) : Scanned := ⟨.error f, .error f⟩

/-- A character before a string. -/
def cons (c : Char) (s : Scanned) : Scanned := { s with text := s.text.map (c :: ·) }

/-- An escape before a string that only a reader cannot take. -/
def refuse (f : Fault) (s : Scanned) : Scanned := { s with text := .error f }

end Scanned

/-- What is wrong after the first half of a pair of escapes that the second does not follow. -/
def unpaired : List Char → Fault
  | [] => .unfinished
  | ['\\'] => .unfinished
  | '\\' :: 'u' :: low =>
    match hex4 low with
    | .error f => f
    | .ok _ => .malformed
  | _ => .malformed

/-- The second half of a pair of escapes. -/
def lowHalf? : List Char → Option (Nat × List Char)
  | '\\' :: 'u' :: low =>
    match hex4 low with
    | .ok (n, rest) => if isLowSurrogate n then some (n, rest) else none
    | .error _ => none
  | _ => none

/-- A string after its opening quote. -/
def stringRest : Nat → List Char → Scanned
  | 0, _ => .fault .malformed
  | _ + 1, [] => .fault .unfinished
  | budget + 1, c :: rest =>
    if c == '"' then ⟨.ok [], .ok rest⟩
    else if c == '\\' then
      match rest with
      | [] => .fault .unfinished
      | 'u' :: rest =>
        match hex4 rest with
        | .error f => .fault f
        | .ok (n, rest) =>
          if isHighSurrogate n then
            match lowHalf? rest with
            | some (m, after) =>
              (stringRest budget after).cons
                (Char.ofNat (0x10000 + (n - 0xD800) * 0x400 + (m - 0xDC00)))
            | none => (stringRest budget rest).refuse (unpaired rest)
          else if isLowSurrogate n then (stringRest budget rest).refuse .malformed
          else (stringRest budget rest).cons (Char.ofNat n)
      | e :: rest =>
        match simpleEscape? e with
        | some c => (stringRest budget rest).cons c
        | none => .fault .malformed
    else if c.toNat < 0x20 then .fault .malformed
    else (stringRest budget rest).cons c

def string (cs : List Char) : Scanned :=
  stringRest (cs.length + 1) cs

/-- The fault that a reader meets in a string, if there is one, or another one. -/
def Scanned.faultOr (s : Scanned) (f : Fault) : Fault :=
  match s.text with
  | .error read => read
  | .ok _ => f

/-- Digits, at least one. -/
def digits (cs : List Char) : Except Value (List Char × List Char) :=
  match cs.takeWhile Char.isDigit with
  | [] => .error (.broken (faultAt cs) .malformed)
  | ds => .ok (ds, cs.dropWhile Char.isDigit)

def exponent (cs : List Char) : Except Value (List Char × List Char) :=
  match cs with
  | e :: rest =>
    if e == 'e' || e == 'E' then
      let (sign, rest) :=
        match rest with
        | '+' :: rest => (['+'], rest)
        | '-' :: rest => (['-'], rest)
        | _ => ([], rest)
      (digits rest).map fun (ds, rest) => (e :: sign ++ ds, rest)
    else .ok ([], cs)
  | [] => .ok ([], [])

def fraction (cs : List Char) : Except Value (List Char × List Char) :=
  match cs with
  | '.' :: rest => (digits rest).map fun (ds, rest) => ('.' :: ds, rest)
  | _ => .ok ([], cs)

def whole (cs : List Char) : Except Value (List Char × List Char) :=
  match cs with
  | '0' :: rest =>
    match rest with
    | c :: _ => if c.isDigit then .error (.broken .malformed .malformed) else .ok (['0'], rest)
    | [] => .ok (['0'], [])
  | _ => digits cs

/-- A number. -/
def number (cs : List Char) : Except Value (List Char × List Char) := do
  let (sign, cs) :=
    match cs with
    | '-' :: rest => (['-'], rest)
    | _ => ([], cs)
  let (a, cs) ← whole cs
  let (b, cs) ← fraction cs
  let (c, cs) ← exponent cs
  return (sign ++ a ++ b ++ c, cs)

/-- The rest of a word after its first letter. -/
def word (letters : List Char) (value : Value) (cs : List Char) : Value × List Char :=
  match letters, cs with
  | [], _ => (value, cs)
  | _ :: _, [] => (.broken .unfinished .unfinished, [])
  | l :: ls, c :: rest =>
    if l == c then word ls value rest else (.broken .malformed .malformed, [])

/-- Whether nothing was read to the end of a value. -/
def stops : Value → Bool
  | .array _ fault => fault.isSome
  | .object _ fault => fault.isSome
  | .broken _ _ => true
  | _ => false

mutual

/-- The value at the start of a text. The budget bounds the number of values and separators. -/
def value : Nat → List Char → Value × List Char
  | 0, _ => (.broken .malformed .malformed, [])
  | budget + 1, cs =>
    match skip cs with
    | [] => (.broken .unfinished .unfinished, [])
    | 'n' :: rest => word ['u', 'l', 'l'] .null rest
    | 't' :: rest => word ['r', 'u', 'e'] (.bool true) rest
    | 'f' :: rest => word ['a', 'l', 's', 'e'] (.bool false) rest
    | '"' :: rest =>
      let s := string rest
      match s.rest with
      | .ok rest => (.string (s.text.toOption.map String.ofList), rest)
      | .error f => (.broken (s.faultOr f) f, [])
    | '[' :: rest =>
      let (items, fault, rest) := items budget true rest
      (.array items fault, rest)
    | '{' :: rest =>
      let (members, fault, rest) := members budget true rest
      (.object members fault, rest)
    | c :: rest =>
      if c == '-' || c.isDigit then
        match number (c :: rest) with
        | .ok (text, rest) => (.number (String.ofList text), rest)
        | .error v => (v, [])
      else (.broken .malformed .malformed, [])

/-- The items of an array up to its end; `first` tells that none was read yet. -/
def items : Nat → Bool → List Char → List Value × Option Fault × List Char
  | 0, _, _ => ([], some .malformed, [])
  | budget + 1, first, cs =>
    let item (cs : List Char) : List Value × Option Fault × List Char :=
      let (v, rest) := value budget cs
      if stops v then ([v], some .malformed, [])
      else
        let (more, fault, rest) := items budget false rest
        (v :: more, fault, rest)
    match skip cs with
    | [] => ([], some .unfinished, [])
    | ']' :: rest => ([], none, rest)
    | c :: rest =>
      if first then item (c :: rest)
      else if c == ',' then
        match skip rest with
        | ']' :: _ => ([], some .malformed, [])
        | rest => item rest
      else ([], some .malformed, [])

/-- The members of an object up to its end. -/
def members : Nat → Bool → List Char →
    List (Except Fault String × Value) × Option Fault × List Char
  | 0, _, _ => ([], some .malformed, [])
  | budget + 1, first, cs =>
    let member (cs : List Char) : List (Except Fault String × Value) × Option Fault × List Char :=
      match cs with
      | '"' :: rest =>
        let s := string rest
        let key := s.text.map String.ofList
        match s.rest with
        | .error f => ([(key, .broken f f)], some .malformed, [])
        | .ok rest =>
          match skip rest with
          | ':' :: rest =>
            let (v, rest) := value budget rest
            if stops v then ([(key, v)], some .malformed, [])
            else
              let (more, fault, rest) := members budget false rest
              ((key, v) :: more, fault, rest)
          | rest => ([(key, .broken (faultAt rest) (faultAt rest))], some .malformed, [])
      | cs => ([], some (faultAt cs), [])
    match skip cs with
    | [] => ([], some .unfinished, [])
    | '}' :: rest => ([], none, rest)
    | c :: rest =>
      if first then member (c :: rest)
      else if c == ',' then
        match skip rest with
        | '}' :: _ => ([], some .malformed, [])
        | rest => member rest
      else ([], some .malformed, [])

end

end Reader

/-- The value at the start of a text, and whether something follows it. -/
def read (text : String) : Value × Bool :=
  let cs := text.toList
  let (v, rest) := Reader.value (2 * cs.length + 2) cs
  (v, !(Reader.skip rest).isEmpty)

end Availability.Json
