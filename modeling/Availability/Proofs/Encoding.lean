import Availability.Text.Utf8
import Mathlib.Tactic.Common

/-!
# Texts survive their bytes

The bytes of a text decode to it. A character has one to four bytes, and each of these forms is one
unit of its bytes.
-/
namespace Availability.Text

theorem toList_loop (bytes : ByteArray) (i : Nat) (read : Bytes) :
    ByteArray.toList.loop bytes i read = read.reverse ++ bytes.data.toList.drop i := by
  fun_induction ByteArray.toList.loop bytes i read with
  | case1 i read hi ih =>
    have hlength : i < bytes.data.toList.length := by simpa using hi
    rw [ih, List.drop_eq_getElem_cons hlength]
    simp [ByteArray.get!, hi]
  | case2 i read hi =>
    have hlength : bytes.data.toList.length ≤ i := by simpa using hi
    simp [List.drop_eq_nil_of_le hlength]

/-- The bytes of a text are those of its characters. -/
theorem encode_eq_flatMap (s : String) : encode s = s.toList.flatMap String.utf8EncodeChar := by
  have hbytes : s.toUTF8 = (s.toList.flatMap String.utf8EncodeChar).toByteArray :=
    String.utf8Encode_toList.symm
  rw [encode, hbytes, ByteArray.toList, toList_loop]
  simp

/-! ## Sequences of several bytes -/

section Sequences

variable {b c d e : UInt8} {lo hi : Nat} (rest : Bytes)

theorem firstUnit_two (hb : ¬ b.toNat < 0x80) (hlead : leadInfo? b = some (lo, hi, 1))
    (hc : within lo hi c = true) :
    firstUnit b (c :: rest) = (some (Char.ofNat (b.toNat % 32 * 64 + tailBits c)), 1) := by
  simp [firstUnit, hb, hlead, hc]

theorem firstUnit_three (hb : ¬ b.toNat < 0x80) (hlead : leadInfo? b = some (lo, hi, 2))
    (hc : within lo hi c = true) (hd : isTail d = true) :
    firstUnit b (c :: d :: rest) =
      (some (Char.ofNat ((b.toNat % 16 * 64 + tailBits c) * 64 + tailBits d)), 2) := by
  simp [firstUnit, hb, hlead, hc, hd]

theorem firstUnit_four (hb : ¬ b.toNat < 0x80) (hlead : leadInfo? b = some (lo, hi, 3))
    (hc : within lo hi c = true) (hd : isTail d = true) (he : isTail e = true) :
    firstUnit b (c :: d :: e :: rest) =
      (some (Char.ofNat
        (((b.toNat % 8 * 64 + tailBits c) * 64 + tailBits d) * 64 + tailBits e)), 3) := by
  simp [firstUnit, hb, hlead, hc, hd, he]

end Sequences

theorem toNat_ofNat_of_lt {n : Nat} (h : n < 256) : (UInt8.ofNat n).toNat = n := by
  simpa using h

/-- A byte after the first one has six bits of a character. -/
theorem isTail_ofNat (n : Nat) : isTail (UInt8.ofNat (n % 64 + 128)) = true := by
  have hn : (UInt8.ofNat (n % 64 + 128)).toNat = n % 64 + 128 := toNat_ofNat_of_lt (by omega)
  simp only [isTail, within, hn, Bool.and_eq_true, decide_eq_true_eq]
  omega

theorem tailBits_ofNat (n : Nat) : tailBits (UInt8.ofNat (n % 64 + 128)) = n % 64 := by
  have hn : (UInt8.ofNat (n % 64 + 128)).toNat = n % 64 + 128 := toNat_ofNat_of_lt (by omega)
  rw [tailBits, hn]
  omega

theorem leadInfo?_two {v : Nat} (hlo : 0x80 ≤ v) (hhi : v < 0x800) :
    leadInfo? (UInt8.ofNat (v / 64 % 32 + 192)) = some (0x80, 0xBF, 1) := by
  have hn : (UInt8.ofNat (v / 64 % 32 + 192)).toNat = v / 64 % 32 + 192 :=
    toNat_ofNat_of_lt (by omega)
  simp only [leadInfo?, hn, Bool.and_eq_true, decide_eq_true_eq]
  rw [if_pos (by omega)]

/-- The second byte is within the bounds that the first one sets: they rule out longer forms than
needed, surrogates and what is no code point. -/
theorem leadInfo?_three {v : Nat} (hlo : 0x800 ≤ v) (hhi : v < 0x10000)
    (hvalid : v < 0xD800 ∨ 0xDFFF < v) :
    ∃ lo hi, leadInfo? (UInt8.ofNat (v / 4096 % 16 + 224)) = some (lo, hi, 2) ∧
      within lo hi (UInt8.ofNat (v / 64 % 64 + 128)) = true := by
  have hn : (UInt8.ofNat (v / 4096 % 16 + 224)).toNat = v / 4096 % 16 + 224 :=
    toNat_ofNat_of_lt (by omega)
  have hm : (UInt8.ofNat (v / 64 % 64 + 128)).toNat = v / 64 % 64 + 128 :=
    toNat_ofNat_of_lt (by omega)
  simp only [leadInfo?, within, hn, hm, Bool.and_eq_true, decide_eq_true_eq, beq_iff_eq]
  split
  · omega
  · split
    · exact ⟨_, _, rfl, by omega⟩
    · split
      · exact ⟨_, _, rfl, by omega⟩
      · split
        · exact ⟨_, _, rfl, by omega⟩
        · omega

theorem leadInfo?_four {v : Nat} (hlo : 0x10000 ≤ v) (hhi : v < 0x110000) :
    ∃ lo hi, leadInfo? (UInt8.ofNat (v / 262144 % 8 + 240)) = some (lo, hi, 3) ∧
      within lo hi (UInt8.ofNat (v / 4096 % 64 + 128)) = true := by
  have hn : (UInt8.ofNat (v / 262144 % 8 + 240)).toNat = v / 262144 % 8 + 240 :=
    toNat_ofNat_of_lt (by omega)
  have hm : (UInt8.ofNat (v / 4096 % 64 + 128)).toNat = v / 4096 % 64 + 128 :=
    toNat_ofNat_of_lt (by omega)
  simp only [leadInfo?, within, hn, hm, Bool.and_eq_true, decide_eq_true_eq, beq_iff_eq]
  rw [if_neg (by omega), if_neg (by omega), if_neg (by omega), if_neg (by omega)]
  split
  · exact ⟨_, _, rfl, by omega⟩
  · split
    · exact ⟨_, _, rfl, by omega⟩
    · rw [if_pos (by omega)]
      exact ⟨_, _, rfl, by omega⟩

theorem units_cons {b : UInt8} {rest : Bytes} {c : Char} {more : Nat}
    (h : firstUnit b rest = (some c, more)) :
    units (b :: rest) = some c :: units (rest.drop more) := by
  simp [units, h]

/-- The bytes of a character are one unit. -/
theorem units_utf8EncodeChar (c : Char) (rest : Bytes) :
    units (String.utf8EncodeChar c ++ rest) = some c :: units rest := by
  have hvalid : c.val.toNat < 0xD800 ∨ 0xDFFF < c.val.toNat ∧ c.val.toNat < 0x110000 := c.valid
  have hchar {n : Nat} (hn : n = c.val.toNat) : Char.ofNat n = c := hn ▸ c.ofNat_toNat
  rw [String.utf8EncodeChar.eq_1]
  generalize c.val.toNat = v at hvalid hchar ⊢
  split
  · have hb : (UInt8.ofNat v).toNat = v := toNat_ofNat_of_lt (by omega)
    have hunit : firstUnit (UInt8.ofNat v) rest = (some c, 0) := by
      rw [firstUnit, hb, if_pos (by omega), hchar rfl]
    exact units_cons hunit
  · split
    · have hb : (UInt8.ofNat (v / 64 % 32 + 192)).toNat = v / 64 % 32 + 192 :=
        toNat_ofNat_of_lt (by omega)
      have hlead := leadInfo?_two (v := v) (by omega) (by omega)
      have hunit := firstUnit_two rest (by omega) hlead (isTail_ofNat v)
      rw [hb, tailBits_ofNat, hchar (by omega)] at hunit
      exact units_cons hunit
    · split
      · have hb : (UInt8.ofNat (v / 4096 % 16 + 224)).toNat = v / 4096 % 16 + 224 :=
          toNat_ofNat_of_lt (by omega)
        obtain ⟨lo, hi, hlead, hsecond⟩ := leadInfo?_three (v := v) (by omega) (by omega) (by omega)
        have hunit := firstUnit_three rest (by omega) hlead hsecond (isTail_ofNat v)
        rw [hb, tailBits_ofNat, tailBits_ofNat, hchar (by omega)] at hunit
        exact units_cons hunit
      · have hb : (UInt8.ofNat (v / 262144 % 8 + 240)).toNat = v / 262144 % 8 + 240 :=
          toNat_ofNat_of_lt (by omega)
        obtain ⟨lo, hi, hlead, hsecond⟩ := leadInfo?_four (v := v) (by omega) (by omega)
        have hunit := firstUnit_four rest (by omega) hlead hsecond (isTail_ofNat (v / 64))
          (isTail_ofNat v)
        rw [hb, tailBits_ofNat, tailBits_ofNat, tailBits_ofNat, hchar (by omega)] at hunit
        exact units_cons hunit

theorem units_flatMap (cs : List Char) :
    units (cs.flatMap String.utf8EncodeChar) = cs.map some := by
  induction cs with
  | nil => simp [units]
  | cons c cs ih => rw [List.flatMap_cons, units_utf8EncodeChar, ih, List.map_cons]

theorem allChars?_map_some (cs : List Char) : allChars? (cs.map some) = some cs := by
  induction cs with
  | nil => rfl
  | cons c cs ih => simp [allChars?, ih]

theorem decode?_encode (s : String) : decode? (encode s) = some s := by
  rw [decode?, encode_eq_flatMap, units_flatMap, allChars?_map_some, Option.map_some,
    String.ofList_toList]

end Availability.Text
