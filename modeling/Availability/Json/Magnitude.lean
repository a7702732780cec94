/-!
# The range of doubles

A number that nobody asked for still has to fit into a double of 64 bits. Its digits are collected
as long as they fit into a word of 64 bits; then the word and a power of ten are rounded to 53 bits
and multiplied.
-/
namespace Availability.Json

/-- The digits of a number that fit into a word, and the power of ten they are multiplied by. -/
structure Magnitude where
  word : Nat := 0
  exponent : Int := 0

namespace Magnitude

private def wordBound : Nat := 1 <<< 64

private def digitValue (c : Char) : Nat := c.toNat - '0'.toNat

/-- The digits before the point; those that do not fit any more count as zeros. -/
def whole (m : Magnitude) : List Char → Magnitude
  | [] => m
  | c :: rest =>
    let word := m.word * 10 + digitValue c
    if word < wordBound then whole { m with word } rest
    else { m with exponent := m.exponent + (rest.length + 1) }

/-- The digits after the point; those that do not fit any more are left out. -/
def fraction (m : Magnitude) : List Char → Magnitude
  | [] => m
  | c :: rest =>
    let word := m.word * 10 + digitValue c
    if word < wordBound then fraction { word, exponent := m.exponent - 1 } rest else m

/-- The nearest number of 53 bits, an even one where two are equally near. -/
def roundToDouble (n : Nat) : Nat :=
  let surplus := n.log2 - 52
  if surplus == 0 then n
  else
    let kept := n >>> surplus
    let lost := n - (kept <<< surplus)
    let half := 1 <<< (surplus - 1)
    let up := half < lost || (lost == half && kept % 2 == 1)
    (if up then kept + 1 else kept) <<< surplus

/-- The least number that is rounded beyond the doubles. -/
def doubleBound : Nat := (1 <<< 1024) - (1 <<< 970)

/-- The greatest power of ten that is a double. -/
def greatestPower : Nat := 308

def exceedsDoubles (m : Magnitude) : Bool :=
  match m.exponent with
  | .negSucc _ => false
  | .ofNat e =>
    m.word != 0 &&
      (greatestPower < e || doubleBound ≤ roundToDouble m.word * roundToDouble (Nat.pow 10 e))

end Magnitude

/-- Exponents from here on are as good as infinite. -/
def exponentBound : Nat := 1 <<< 31

/-- Whether a number, as it is written, is too large for a double. -/
def exceedsDoubles (text : String) : Bool :=
  let digits := text.toList.dropWhile (· == '-')
  let (whole, rest) := digits.span Char.isDigit
  let (fraction, rest) :=
    match rest with
    | '.' :: rest => rest.span Char.isDigit
    | _ => ([], rest)
  let (negative, exponent) :=
    match rest with
    | _ :: '-' :: digits => (true, digits)
    | _ :: '+' :: digits => (false, digits)
    | _ :: digits => (false, digits)
    | [] => (false, [])
  let m := ((({} : Magnitude).whole whole).fraction fraction)
  let exponent := exponent.foldl (fun n c => n * 10 + (c.toNat - '0'.toNat)) 0
  if exponentBound ≤ exponent then m.word != 0 && !negative
  else
    let shift : Int := if negative then -exponent else exponent
    { m with exponent := m.exponent + shift }.exceedsDoubles

end Availability.Json
