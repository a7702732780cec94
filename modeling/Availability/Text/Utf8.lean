/-!
# Text from bytes

Decoding keeps the places where bytes are not UTF-8: `units` gives a character for each well-formed
sequence and a hole for each maximal part of an ill-formed one. A text is then readable when it has
no hole, and a lenient reading puts U+FFFD into the holes.
-/
namespace Availability.Text

abbrev Bytes := List UInt8

def within (lo hi : Nat) (b : UInt8) : Bool :=
  lo ≤ b.toNat && b.toNat ≤ hi

def isTail (b : UInt8) : Bool :=
  within 0x80 0xBF b

def tailBits (b : UInt8) : Nat :=
  b.toNat % 64

/-- The bounds of the second byte of a sequence, and the number of bytes after the first, for a
first byte that starts a sequence of several bytes. -/
def leadInfo? (b : UInt8) : Option (Nat × Nat × Nat) :=
  let n := b.toNat
  if 0xC2 ≤ n && n ≤ 0xDF then some (0x80, 0xBF, 1)
  else if n == 0xE0 then some (0xA0, 0xBF, 2)
  else if n == 0xED then some (0x80, 0x9F, 2)
  else if 0xE1 ≤ n && n ≤ 0xEF then some (0x80, 0xBF, 2)
  else if n == 0xF0 then some (0x90, 0xBF, 3)
  else if 0xF1 ≤ n && n ≤ 0xF3 then some (0x80, 0xBF, 3)
  else if n == 0xF4 then some (0x80, 0x8F, 3)
  else none

/-- The first character of nonempty input, or a hole, with the number of bytes it takes beyond the
first. -/
def firstUnit (b : UInt8) (rest : Bytes) : Option Char × Nat :=
  if b.toNat < 0x80 then (some (Char.ofNat b.toNat), 0)
  else
    match leadInfo? b with
    | none => (none, 0)
    | some (lo, hi, count) =>
      match rest with
      | [] => (none, 0)
      | c :: rest =>
        if !within lo hi c then (none, 0)
        else if count == 1 then
          (some (Char.ofNat (b.toNat % 32 * 64 + tailBits c)), 1)
        else
          match rest with
          | [] => (none, 1)
          | d :: rest =>
            if !isTail d then (none, 1)
            else if count == 2 then
              (some (Char.ofNat ((b.toNat % 16 * 64 + tailBits c) * 64 + tailBits d)), 2)
            else
              match rest with
              | [] => (none, 2)
              | e :: _ =>
                if !isTail e then (none, 2)
                else
                  (some (Char.ofNat
                    (((b.toNat % 8 * 64 + tailBits c) * 64 + tailBits d) * 64 + tailBits e)), 3)

/-- Characters and holes, in order. -/
def units : Bytes → List (Option Char)
  | [] => []
  | b :: rest =>
    let (unit, more) := firstUnit b rest
    unit :: units (rest.drop more)
termination_by bytes => bytes.length
decreasing_by exact Nat.lt_succ_of_le (rest.length_drop ▸ Nat.sub_le _ _)

/-- The characters, if there is no hole. -/
def allChars? : List (Option Char) → Option (List Char)
  | [] => some []
  | none :: _ => none
  | some c :: rest => (allChars? rest).map (c :: ·)

/-- The text that the bytes encode. -/
def decode? (bytes : Bytes) : Option String :=
  (allChars? (units bytes)).map String.ofList

/-- The text with U+FFFD for each hole. -/
def decodeLenient (bytes : Bytes) : List Char :=
  (units bytes).map (·.getD (Char.ofNat 0xFFFD))

/-- The bytes of a text. -/
def encode (s : String) : Bytes :=
  s.toUTF8.toList

end Availability.Text
