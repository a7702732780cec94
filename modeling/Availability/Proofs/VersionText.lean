import Availability.Version
import Mathlib.Tactic.Common

/-!
# Versions are read back

A version is printed as three numbers in decimal digits with points between them, and that text is
read as the same version.
-/
namespace Availability

namespace Text

theorem split_of_not_mem {sep : Char} {piece : List Char} (h : sep ∉ piece) :
    split sep piece = [piece] := by
  induction piece with
  | nil => rfl
  | cons c piece ih =>
    rw [List.mem_cons, not_or] at h
    have hc : (c == sep) = false := beq_eq_false_iff_ne.mpr (Ne.symm h.1)
    simp [split, hc, ih h.2]

theorem split_append {sep : Char} {piece : List Char} (h : sep ∉ piece) (rest : List Char) :
    split sep (piece ++ sep :: rest) = piece :: split sep rest := by
  induction piece with
  | nil => simp [split]
  | cons c piece ih =>
    rw [List.mem_cons, not_or] at h
    have hc : (c == sep) = false := beq_eq_false_iff_ne.mpr (Ne.symm h.1)
    simp [split, hc, ih h.2]

end Text

namespace Version

theorem digitsValue_toDigits (n : Nat) : digitsValue (Nat.toDigits 10 n) = n := by
  have hfold : digitsValue (Nat.toDigits 10 n) = Nat.ofDigitChars 10 (Nat.toDigits 10 n) 0 := by
    simp only [digitsValue, Nat.ofDigitChars, Nat.mul_comm]
  rw [hfold, Nat.ofDigitChars_ten_toDigits]

theorem isDigit_of_mem_toDigits {n : Nat} {c : Char} (h : c ∈ Nat.toDigits 10 n) :
    c.isDigit = true :=
  Nat.isDigit_of_mem_toDigits (by decide) (by decide) h

theorem number?_toDigits (n : UInt32) : number? (Nat.toDigits 10 n.toNat) = some n := by
  have hne : (Nat.toDigits 10 n.toNat).isEmpty = false := by simp [Nat.toDigits_ne_nil]
  have hall : (Nat.toDigits 10 n.toNat).all Char.isDigit = true :=
    List.all_eq_true.mpr fun _ => isDigit_of_mem_toDigits
  simp [number?, hne, hall, digitsValue_toDigits, n.toNat_lt_size]

theorem point_not_mem_toDigits (n : Nat) : '.' ∉ Nat.toDigits 10 n := fun h =>
  absurd (isDigit_of_mem_toDigits h) (by decide)

theorem ofString?_toString (v : Version) : ofString? v.toString = some v := by
  have hchars : v.toString.toList = Nat.toDigits 10 v.major.toNat ++ '.' ::
      (Nat.toDigits 10 v.minor.toNat ++ '.' :: Nat.toDigits 10 v.patch.toNat) := by
    simp [Version.toString, decimal]
  rw [ofString?, hchars, ofChars?, Text.split_append (point_not_mem_toDigits _),
    Text.split_append (point_not_mem_toDigits _), Text.split_of_not_mem (point_not_mem_toDigits _)]
  simp [number?_toDigits]

end Version

end Availability
