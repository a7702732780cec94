import Availability.Proofs.Encoding
import Mathlib.Data.List.Lex
import Mathlib.Data.String.Basic

/-!
# Texts are ordered like their bytes

Texts are compared by the code points of their characters. The bytes of a greater character come
later than those of a smaller one, whatever follows either, so that texts have the same order as
their bytes.
-/
namespace Availability.Text

/-- The bytes of a character, as numbers, by its code point. -/
def codeUnits (v : Nat) : List Nat :=
  if v ≤ 0x7F then [v]
  else if v ≤ 0x7FF then [v / 64 + 0xC0, v % 64 + 0x80]
  else if v ≤ 0xFFFF then [v / 4096 + 0xE0, v / 64 % 64 + 0x80, v % 64 + 0x80]
  else [v / 262144 + 0xF0, v / 4096 % 64 + 0x80, v / 64 % 64 + 0x80, v % 64 + 0x80]

theorem map_toNat_utf8EncodeChar (c : Char) :
    (String.utf8EncodeChar c).map UInt8.toNat = codeUnits c.toNat := by
  have hvalid : c.val.toNat < 0xD800 ∨ 0xDFFF < c.val.toNat ∧ c.val.toNat < 0x110000 := c.valid
  change _ = codeUnits c.val.toNat
  rw [String.utf8EncodeChar.eq_1, codeUnits]
  generalize c.val.toNat = v at hvalid ⊢
  by_cases hone : v ≤ 0x7F
  · rw [if_pos hone, if_pos hone, List.map_singleton, toNat_ofNat_of_lt (by omega)]
  · rw [if_neg hone, if_neg hone]
    by_cases htwo : v ≤ 0x7FF
    · have hlead : v / 64 % 32 = v / 64 := by omega
      rw [if_pos htwo, if_pos htwo, hlead, List.map_cons, List.map_singleton,
        toNat_ofNat_of_lt (by omega), toNat_ofNat_of_lt (by omega)]
    · rw [if_neg htwo, if_neg htwo]
      by_cases hthree : v ≤ 0xFFFF
      · have hlead : v / 4096 % 16 = v / 4096 := by omega
        rw [if_pos hthree, if_pos hthree, hlead, List.map_cons, List.map_cons, List.map_singleton,
          toNat_ofNat_of_lt (by omega), toNat_ofNat_of_lt (by omega), toNat_ofNat_of_lt (by omega)]
      · have hlead : v / 262144 % 8 = v / 262144 := by omega
        rw [if_neg hthree, if_neg hthree, hlead, List.map_cons, List.map_cons, List.map_cons,
          List.map_singleton, toNat_ofNat_of_lt (by omega), toNat_ofNat_of_lt (by omega),
          toNat_ofNat_of_lt (by omega), toNat_ofNat_of_lt (by omega)]

/-- More bytes start with a greater one; of as many bytes each has the next six bits. -/
theorem codeUnits_lex {v w : Nat} (h : v < w) (xs ys : List Nat) :
    List.Lex (· < ·) (codeUnits v ++ xs) (codeUnits w ++ ys) := by
  unfold codeUnits
  split
  · split
    · exact .rel h
    · split
      · exact .rel (by omega)
      · split
        · exact .rel (by omega)
        · exact .rel (by omega)
  · rw [if_neg (by omega : ¬w ≤ 0x7F)]
    split
    · split
      · have hbits : v / 64 + 0xC0 < w / 64 + 0xC0 ∨ v / 64 + 0xC0 = w / 64 + 0xC0 ∧
            v % 64 + 0x80 < w % 64 + 0x80 := by
          omega
        simp only [List.cons_append, List.nil_append, List.cons_lex_cons_iff]
        tauto
      · split
        · exact .rel (by omega)
        · exact .rel (by omega)
    · rw [if_neg (by omega : ¬w ≤ 0x7FF)]
      split
      · split
        · have hbits : v / 4096 + 0xE0 < w / 4096 + 0xE0 ∨ v / 4096 + 0xE0 = w / 4096 + 0xE0 ∧
              (v / 64 % 64 + 0x80 < w / 64 % 64 + 0x80 ∨
                v / 64 % 64 + 0x80 = w / 64 % 64 + 0x80 ∧ v % 64 + 0x80 < w % 64 + 0x80) := by
            omega
          simp only [List.cons_append, List.nil_append, List.cons_lex_cons_iff]
          tauto
        · exact .rel (by omega)
      · rw [if_neg (by omega : ¬w ≤ 0xFFFF)]
        have hbits : v / 262144 + 0xF0 < w / 262144 + 0xF0 ∨
            v / 262144 + 0xF0 = w / 262144 + 0xF0 ∧
              (v / 4096 % 64 + 0x80 < w / 4096 % 64 + 0x80 ∨
                v / 4096 % 64 + 0x80 = w / 4096 % 64 + 0x80 ∧
                  (v / 64 % 64 + 0x80 < w / 64 % 64 + 0x80 ∨
                    v / 64 % 64 + 0x80 = w / 64 % 64 + 0x80 ∧ v % 64 + 0x80 < w % 64 + 0x80)) := by
          omega
        simp only [List.cons_append, List.nil_append, List.cons_lex_cons_iff]
        tauto

theorem lex_map_toNat_iff {xs ys : Bytes} :
    List.Lex (· < ·) (xs.map UInt8.toNat) (ys.map UInt8.toNat) ↔ List.Lex (· < ·) xs ys := by
  induction xs generalizing ys with
  | nil => cases ys <;> simp
  | cons x xs ih =>
    cases ys with
    | nil => simp
    | cons y ys =>
      simp only [List.map_cons, List.cons_lex_cons_iff, ih, UInt8.lt_iff_toNat_lt, UInt8.toNat_inj]

theorem map_toNat_flatMap (cs : List Char) :
    (cs.flatMap String.utf8EncodeChar).map UInt8.toNat = cs.flatMap fun c => codeUnits c.toNat := by
  simp only [List.map_flatMap, map_toNat_utf8EncodeChar]

theorem codeUnits_ne_nil (v : Nat) : codeUnits v ≠ [] := by
  unfold codeUnits
  split
  · simp
  · split
    · simp
    · split <;> simp

/-- Characters that come later have bytes that come later. -/
theorem flatMap_codeUnits_lex {cs ds : List Char} (h : List.Lex (· < ·) cs ds) :
    List.Lex (· < ·) (cs.flatMap fun c => codeUnits c.toNat)
      (ds.flatMap fun c => codeUnits c.toNat) := by
  induction h with
  | @nil d ds =>
    obtain ⟨unit, units, hunits⟩ := List.exists_cons_of_ne_nil (codeUnits_ne_nil d.toNat)
    rw [List.flatMap_cons, hunits]
    exact .nil
  | cons _ ih => exact List.Lex.append_left _ ih _
  | rel hlt => exact codeUnits_lex hlt _ _

theorem encode_lt_of_lt {s t : String} (h : s < t) : encode s < encode t := by
  have hbytes := flatMap_codeUnits_lex (String.lt_iff_toList_lt.mp h)
  rw [← map_toNat_flatMap, ← map_toNat_flatMap, lex_map_toNat_iff] at hbytes
  rwa [encode_eq_flatMap, encode_eq_flatMap]

theorem encode_lt_iff {s t : String} : encode s < encode t ↔ s < t := by
  refine ⟨fun h => ?_, encode_lt_of_lt⟩
  rcases lt_trichotomy s t with hlt | rfl | hgt
  · exact hlt
  · exact absurd h (List.lt_irrefl _)
  · exact absurd h (List.lt_asymm (encode_lt_of_lt hgt))

end Availability.Text
