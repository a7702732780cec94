import Availability.Candidate
import Mathlib.Tactic.Common

/-!
# Spellings

Two spellings of a text are taken for the same if they have one normal form. A `Spelling` is a
normal form that the reading of names and quoted texts respects: the text itself, if every letter
counts, or the text in small letters, if the case of letters does not.
-/
namespace Availability

open Php

namespace Text

theorem isUpper_iff {c : Char} : c.isUpper = true ↔ 65 ≤ c.toNat ∧ c.toNat ≤ 90 := by
  change decide (c.val ≥ 65 ∧ c.val ≤ 90) = true ↔ _
  simp [UInt32.le_iff_toNat_le]

theorem isLower_iff {c : Char} : c.isLower = true ↔ 97 ≤ c.toNat ∧ c.toNat ≤ 122 := by
  change (decide (c.val ≥ 97) && decide (c.val ≤ 122)) = true ↔ _
  simp [UInt32.le_iff_toNat_le]

theorem isAlpha_iff {c : Char} : c.isAlpha = true ↔
    (65 ≤ c.toNat ∧ c.toNat ≤ 90) ∨ (97 ≤ c.toNat ∧ c.toNat ≤ 122) := by
  change (c.isUpper || c.isLower) = true ↔ _
  rw [Bool.or_eq_true, isUpper_iff, isLower_iff]

/-- What holds of the 26 capital letters holds of a character that is one of them. -/
theorem forall_isUpper {p : Char → Prop} (h : ∀ n ∈ List.range' 65 26, p (Char.ofNat n)) (c : Char)
    (hc : c.isUpper = true) : p c := by
  have hmem : c.toNat ∈ List.range' 65 26 := by
    rw [isUpper_iff] at hc
    rw [List.mem_range'_1]
    omega
  simpa using h c.toNat hmem

theorem toLower_of_not_isUpper {c : Char} (hc : ¬ c.isUpper = true) : c.toLower = c :=
  dif_neg fun h => hc (decide_eq_true h)

/-- What the 26 capital letters and their small letters have in common does not depend on the case
of letters. -/
theorem toLower_congr_of_isUpper {α : Type} (f : Char → α)
    (hf : ∀ c : Char, c.isUpper = true → f c.toLower = f c) (c : Char) : f c.toLower = f c := by
  by_cases hc : c.isUpper = true
  · exact hf c hc
  · rw [toLower_of_not_isUpper hc]

@[simp] theorem isAlpha_toLower (c : Char) : c.toLower.isAlpha = c.isAlpha :=
  toLower_congr_of_isUpper Char.isAlpha (forall_isUpper (by decide)) c

@[simp] theorem toLower_toLower (c : Char) : c.toLower.toLower = c.toLower :=
  toLower_congr_of_isUpper Char.toLower (forall_isUpper (by decide)) c

/-- What no letter has does not depend on the case of letters. -/
theorem toLower_congr {p : Char → Bool} (hp : ∀ c : Char, c.isAlpha = true → p c = false)
    (c : Char) : p c.toLower = p c := by
  refine toLower_congr_of_isUpper p (fun c hc => ?_) c
  have hletter : c.isAlpha = true := isAlpha_iff.mpr (.inl (isUpper_iff.mp hc))
  rw [hp c hletter, hp c.toLower (by rw [isAlpha_toLower, hletter])]

theorem toLower_beq {d : Char} (hd : d.isAlpha = false) (c : Char) :
    (c.toLower == d) = (c == d) := by
  refine toLower_congr (p := (· == d)) (fun e he => ?_) c
  rw [beq_eq_false_iff_ne]
  rintro rfl
  simp [he] at hd

theorem toLower_eq_iff {c d : Char} (hd : d.isAlpha = false) : c.toLower = d ↔ c = d := by
  simpa using toLower_beq hd c

@[simp] theorem isWhitespace_toLower (c : Char) : isWhitespace c.toLower = isWhitespace c := by
  refine toLower_congr (fun c hc => ?_) c
  have hletter := isAlpha_iff.mp hc
  simp only [isWhitespace, Bool.or_eq_false_iff, Bool.and_eq_false_iff, decide_eq_false_iff_not,
    beq_eq_false_iff_ne]
  omega

@[simp] theorem toList_lower (s : String) : (lower s).toList = s.toList.map Char.toLower := by
  simp [lower]

@[simp] theorem lower_lower (s : String) : lower (lower s) = lower s := by
  simp [lower, Function.comp_def]

@[simp] theorem lower_append (s t : String) : lower (s ++ t) = lower s ++ lower t := by
  simp [lower]

@[simp] theorem isEmpty_lower (s : String) : (lower s).isEmpty = s.isEmpty := by
  rw [Bool.eq_iff_iff, String.isEmpty_iff, String.isEmpty_iff, ← String.toList_inj,
    ← String.toList_inj, toList_lower]
  simp

theorem dropWhile_toLower {p : Char → Bool} (hp : ∀ c : Char, p c.toLower = p c)
    (cs : List Char) :
    (cs.map Char.toLower).dropWhile p = (cs.dropWhile p).map Char.toLower := by
  rw [List.dropWhile_map, Function.comp_def]
  simp only [hp]

theorem trim_lower (s : String) : trim (lower s) = lower (trim s) := by
  simp only [trim, trimChars, trimStart, trimEnd, lower, String.toList_ofList,
    dropWhile_toLower isWhitespace_toLower, ← List.map_reverse]

end Text

namespace Php.Literal

open Text

theorem lookupName?_lower (s : String) :
    lookupName? (lower s) = (lookupName? s).map lower := by
  have h : withoutLeadingSeparators (lower s) = lower (withoutLeadingSeparators s) := by
    unfold withoutLeadingSeparators
    rw [toList_lower, dropWhile_toLower fun c => toLower_beq rfl c]
    simp [lower]
  unfold lookupName? nonempty?
  rw [h, isEmpty_lower]
  split <;> rfl

theorem isBinaryMark_toLower (c : Char) :
    (c.toLower == 'b' || c.toLower == 'B') = (c == 'b' || c == 'B') :=
  toLower_congr_of_isUpper (fun c => c == 'b' || c == 'B') (forall_isUpper (by decide)) c

/-- A quoted text without the mark that may stand before it. -/
def unmarked : List Char → List Char
  | [] => []
  | c :: rest => if c == 'b' || c == 'B' then rest else c :: rest

/-- What is between two quotes. -/
def between? (quote : Char) : List Char → Option (List Char)
  | [] => none
  | c :: rest => if c == quote && rest.getLast? == some quote then some rest.dropLast else none

theorem unquote?_eq (quote : Char) (cs : List Char) :
    unquote? quote cs = between? quote (unmarked cs) := by
  cases cs <;> rfl

theorem unmarked_toLower (cs : List Char) :
    unmarked (cs.map Char.toLower) = (unmarked cs).map Char.toLower := by
  cases cs with
  | nil => rfl
  | cons c rest =>
    simp only [List.map_cons, unmarked, isBinaryMark_toLower]
    split <;> rfl

theorem between?_toLower {quote : Char} (hquote : quote.isAlpha = false) (cs : List Char) :
    between? quote (cs.map Char.toLower) = (between? quote cs).map (·.map Char.toLower) := by
  cases cs with
  | nil => rfl
  | cons c rest =>
    have hlast : ((rest.map Char.toLower).getLast? == some quote) =
        (rest.getLast? == some quote) := by
      rw [List.getLast?_map]
      cases rest.getLast? with
      | none => rfl
      | some d => simpa using toLower_beq hquote d
    simp only [List.map_cons, between?, toLower_beq hquote, hlast, ← List.map_dropLast]
    split <;> rfl

theorem unquote?_toLower {quote : Char} (hquote : quote.isAlpha = false) (cs : List Char) :
    unquote? quote (cs.map Char.toLower) = (unquote? quote cs).map (·.map Char.toLower) := by
  rw [unquote?_eq, unquote?_eq, unmarked_toLower, between?_toLower hquote]

theorem hasEmbedded_toLower (cs : List Char) :
    hasEmbedded (cs.map Char.toLower) = hasEmbedded cs := by
  fun_induction hasEmbedded cs with
  | case1 => rfl
  | case2 => rfl
  | case3 c rest ih => simpa [hasEmbedded] using ih
  | case4 => rfl
  | case5 c rest ih =>
    rw [List.map_cons] at ih
    simp only [List.map_cons, show Char.toLower '$' = '$' from rfl, hasEmbedded, ih,
      toLower_beq (show Char.isAlpha '{' = false from rfl),
      toLower_beq (show Char.isAlpha '_' = false from rfl), isAlpha_toLower]
  | case6 => rfl
  | case7 c rest ih =>
    rw [List.map_cons] at ih
    simp only [List.map_cons, show Char.toLower '{' = '{' from rfl, hasEmbedded, ih,
      toLower_beq (show Char.isAlpha '$' = false from rfl)]
  | case8 c rest hbackslash hdollar hbrace ih =>
    rw [List.map_cons, hasEmbedded, ih] <;> simpa [toLower_eq_iff]

theorem unescape_toLower {escaped : List Char} (hescaped : ∀ c ∈ escaped, c.isAlpha = false)
    (cs : List Char) :
    unescape escaped (cs.map Char.toLower) = (unescape escaped cs).map Char.toLower := by
  have hmark (c : Char) : (c.toLower == '\\' || escaped.contains c.toLower) =
      (c == '\\' || escaped.contains c) := by
    refine toLower_congr (p := fun c => c == '\\' || escaped.contains c) (fun c hc => ?_) c
    have hbackslash : c ≠ '\\' := by
      rintro rfl
      exact absurd hc (by decide)
    have hescape : c ∉ escaped := fun hmem => absurd hc (by simp [hescaped c hmem])
    simp [hbackslash, hescape]
  fun_induction unescape escaped cs with
  | case1 => rfl
  | case2 c rest h ih =>
    simp only [List.map_cons, show Char.toLower '\\' = '\\' from rfl, unescape, hmark, h, if_true,
      ih]
  | case3 c rest h ih =>
    rw [List.map_cons] at ih
    simp only [List.map_cons, show Char.toLower '\\' = '\\' from rfl, unescape, hmark, h,
      Bool.false_eq_true, if_false, ih]
  | case4 c rest h ih =>
    rw [List.map_cons, unescape, ih, List.map_cons]
    intro d tail hc htail
    obtain ⟨e, tail, rfl, -, -⟩ := List.map_eq_cons_iff.mp htail
    exact h e tail ((toLower_eq_iff rfl).mp hc) rfl

theorem singleQuoted?_lower (s : String) :
    singleQuoted? (lower s) = (singleQuoted? s).map lower := by
  unfold singleQuoted?
  rw [toList_lower, unquote?_toLower rfl, Option.map_map, Option.map_map]
  congr 1
  funext inner
  simp only [Function.comp_apply, lower, String.toList_ofList]
  rw [unescape_toLower (List.forall_mem_singleton.mpr rfl)]

theorem doubleQuoted?_lower (s : String) :
    doubleQuoted? (lower s) = (doubleQuoted? s).map lower := by
  unfold doubleQuoted?
  rw [toList_lower, unquote?_toLower rfl]
  cases unquote? '"' s.toList with
  | none => rfl
  | some inner =>
    simp only [Option.map_some, hasEmbedded_toLower]
    split
    · rfl
    · simp only [Option.map_some, lower, String.toList_ofList]
      rw [unescape_toLower (List.forall_mem_cons.mpr ⟨rfl, List.forall_mem_singleton.mpr rfl⟩)]

end Php.Literal

/-- A normal form of spellings that the reading of names and of quoted texts respects. -/
structure Spelling where
  norm : String → String
  lower_norm (s : String) : Text.lower (norm s) = Text.lower s
  trim_norm (s : String) : Text.trim (norm s) = norm (Text.trim s)
  lookupName?_norm (s : String) :
    Literal.lookupName? (norm s) = (Literal.lookupName? s).map norm
  singleQuoted?_norm (s : String) :
    Literal.singleQuoted? (norm s) = (Literal.singleQuoted? s).map norm
  doubleQuoted?_norm (s : String) :
    Literal.doubleQuoted? (norm s) = (Literal.doubleQuoted? s).map norm
  methodKey_norm (className method : String) :
    norm (Candidate.methodKey (norm className) method) = norm (Candidate.methodKey className method)

namespace Spelling

/-- Every letter counts as it is. -/
def exact : Spelling where
  norm s := s
  lower_norm _ := rfl
  trim_norm _ := rfl
  lookupName?_norm _ := Option.map_id'.symm
  singleQuoted?_norm _ := Option.map_id'.symm
  doubleQuoted?_norm _ := Option.map_id'.symm
  methodKey_norm _ _ := rfl

/-- The case of letters does not count. -/
def anyCase : Spelling where
  norm := Text.lower
  lower_norm := Text.lower_lower
  trim_norm := Text.trim_lower
  lookupName?_norm := Literal.lookupName?_lower
  singleQuoted?_norm := Literal.singleQuoted?_lower
  doubleQuoted?_norm := Literal.doubleQuoted?_lower
  methodKey_norm className method := by
    simp only [Candidate.methodKey, Text.lower_append, Text.lower_lower]

variable (S : Spelling) {a b : String}

theorem lower_eq (h : S.norm a = S.norm b) : Text.lower a = Text.lower b := by
  rw [← S.lower_norm a, h, S.lower_norm]

theorem lookupName?_eq (h : S.norm a = S.norm b) :
    (Literal.lookupName? a).map S.norm = (Literal.lookupName? b).map S.norm := by
  rw [← S.lookupName?_norm, h, S.lookupName?_norm]

theorem methodKey_eq (h : S.norm a = S.norm b) (method : String) :
    S.norm (Candidate.methodKey a method) = S.norm (Candidate.methodKey b method) := by
  rw [← S.methodKey_norm, h, S.methodKey_norm]

theorem sameLetters_congr {a b c d : String} (hab : S.norm a = S.norm b)
    (hcd : S.norm c = S.norm d) : Text.sameLetters a c = Text.sameLetters b d := by
  unfold Text.sameLetters
  rw [S.lower_eq hab, S.lower_eq hcd]

/-- A reading of texts that a normal form respects gives the same for texts that may be missing. -/
theorem bind_congr {read : String → Option String}
    (hread : ∀ s, read (S.norm s) = (read s).map S.norm) {s t : Option String}
    (h : s.map S.norm = t.map S.norm) :
    (s.bind read).map S.norm = (t.bind read).map S.norm := by
  have key (s : Option String) : (s.bind read).map S.norm = (s.map S.norm).bind read := by
    cases s with
    | none => rfl
    | some s => exact (hread s).symm
  rw [key, key, h]

end Spelling

end Availability
