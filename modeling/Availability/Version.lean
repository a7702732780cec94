import Availability.Text.Quoted
import Availability.Text.Whitespace

/-!
# Versions

A version is written `major.minor` or `major.minor.patch` in decimal digits. Versions are ordered
by major, then minor, then patch number, and are printed with all three.
-/
namespace Availability

structure Version where
  major : UInt32
  minor : UInt32
  patch : UInt32
  deriving DecidableEq, Inhabited

namespace Version

def compare (a b : Version) : Ordering :=
  (Ord.compare a.major.toNat b.major.toNat).then <|
    (Ord.compare a.minor.toNat b.minor.toNat).then <|
      Ord.compare a.patch.toNat b.patch.toNat

instance : Ord Version := ⟨compare⟩

instance : LE Version := ⟨fun a b => (compare a b).isLE = true⟩

instance (a b : Version) : Decidable (a ≤ b) :=
  inferInstanceAs (Decidable ((compare a b).isLE = true))

/-- The value of a list of decimal digits. -/
def digitsValue (digits : List Char) : Nat :=
  digits.foldl (fun n c => n * 10 + (c.toNat - '0'.toNat)) 0

/-- One number of a version: at least one digit, digits only, below 2 ^ 32. -/
def number? (cs : List Char) : Option UInt32 :=
  if cs.isEmpty || !cs.all Char.isDigit then none
  else
    let n := digitsValue cs
    if n < UInt32.size then some (UInt32.ofNat n) else none

/-- A text that is not a version. -/
structure Malformed where
  text : String
  deriving DecidableEq

def Malformed.message (e : Malformed) : String :=
  "invalid version " ++ Text.quote e.text ++ ": expected major.minor[.patch]"

/-- Reads a version from characters. -/
def ofChars? (cs : List Char) : Option Version :=
  match Text.split '.' cs with
  | [major, minor] => do return ⟨← number? major, ← number? minor, 0⟩
  | [major, minor, patch] => do return ⟨← number? major, ← number? minor, ← number? patch⟩
  | _ => none

def ofString? (s : String) : Option Version :=
  ofChars? s.toList

def parse (s : String) : Except Malformed Version :=
  match ofString? s with
  | some v => .ok v
  | none => .error ⟨s⟩

/-- Reads the version of a doc tag, where `MU` stands for the release that merged the multi-site
edition. -/
def ofTag? (s : String) : Option Version :=
  if s == "MU" then some ⟨3, 0, 0⟩ else ofString? s

def parseTag (s : String) : Except Malformed Version :=
  match ofTag? s with
  | some v => .ok v
  | none => .error ⟨s⟩

/-- A number in decimal digits. -/
def decimal (n : Nat) : String :=
  String.ofList (Nat.toDigits 10 n)

protected def toString (v : Version) : String :=
  decimal v.major.toNat ++ "." ++ decimal v.minor.toNat ++ "." ++ decimal v.patch.toNat

instance : ToString Version := ⟨Version.toString⟩

end Version

end Availability
