import Availability.Guards
import Availability.Php.Program
import Availability.Proofs.QuotedLiterals
import Mathlib.Data.List.DropRight

/-!
# Substitutions in double-quoted texts

A double-quoted text substitutes something where `${` or `{$` stands in it, or `$` before the start
of a name, unless the first of the two characters is escaped, that is, comes after an odd number of
backslashes. The text is taken for a literal if there is no such place with a name that starts in
ASCII; names that start beyond ASCII are passed over.
-/
namespace Availability.Php

namespace Literal

/-- Whether the character after a text is escaped: it comes after an odd number of backslashes. -/
def Escaped (before : List Char) : Prop :=
  (before.rtakeWhile (· == '\\')).length % 2 = 1

instance (before : List Char) : Decidable (Escaped before) :=
  inferInstanceAs (Decidable (_ = _))

/-- A text substitutes the value of a variable or an expression, where the name of a variable starts
with a character of some class. -/
def Substitutes (starts : Char → Bool) (inner : List Char) : Prop :=
  ∃ before c d after, inner = before ++ c :: d :: after ∧ opens starts c d = true ∧
    ¬Escaped before

/-- What the name of a variable starts with. -/
def isNameStart (c : Char) : Bool :=
  Source.isNameStart (some c)

/-- A text substitutes the value of a variable whose name starts beyond ASCII. -/
def NamesBeyondAscii (inner : List Char) : Prop :=
  ∃ before d after, inner = before ++ '$' :: d :: after ∧ ¬Escaped before ∧ 0x80 ≤ d.toNat ∧
    isNameStart d = true

/-! ## Backslashes in front -/

theorem length_rtakeWhile_cons (p : Char → Bool) (c : Char) (before : List Char) :
    ((c :: before).rtakeWhile p).length =
      if (before.rtakeWhile p).length = before.length ∧ p c = true then before.length + 1
      else (before.rtakeWhile p).length := by
  simp only [List.rtakeWhile, List.reverse_cons, List.takeWhile_append, List.length_reverse]
  by_cases hall : (before.reverse.takeWhile p).length = before.length
  · by_cases hc : p c = true
    · simp [hall, hc]
    · simp [hall, hc]
  · simp [hall]

theorem escaped_cons {c : Char} (hc : c ≠ '\\') (before : List Char) :
    Escaped (c :: before) ↔ Escaped before := by
  have hnot : (c == '\\') ≠ true := by simpa using hc
  rw [Escaped, Escaped, length_rtakeWhile_cons, if_neg fun h => hnot h.2]

/-- A backslash and what it escapes do not escape what follows. -/
theorem escaped_pair (c : Char) (before : List Char) :
    Escaped ('\\' :: c :: before) ↔ Escaped before := by
  have hle : (before.rtakeWhile (· == '\\')).length ≤ before.length :=
    (List.rtakeWhile_suffix _ before).length_le
  rw [Escaped, Escaped, length_rtakeWhile_cons, length_rtakeWhile_cons, List.length_cons]
  by_cases hall : (before.rtakeWhile (· == '\\')).length = before.length ∧ (c == '\\') = true
  · rw [if_pos hall, if_pos ⟨rfl, rfl⟩, hall.1]
    omega
  · rw [if_neg hall, if_neg (by omega)]

/-! ## Where a text substitutes -/

variable {starts : Char → Bool} {c : Char} {rest inner : List Char}

theorem not_substitutes_nil : ¬Substitutes starts [] := by
  rintro ⟨before, c, d, after, heq, -⟩
  simp at heq

theorem not_substitutes_singleton : ¬Substitutes starts [c] := by
  rintro ⟨before, d, e, after, heq, -⟩
  have hlength := congrArg List.length heq
  simp at hlength
  omega

theorem substitutes_cons (hc : c ≠ '\\') :
    Substitutes starts (c :: rest) ↔
      rest.head?.any (opens starts c) = true ∨ Substitutes starts rest := by
  constructor
  · rintro ⟨before, c', d, after, heq, hopens, hescaped⟩
    cases before with
    | nil =>
      obtain ⟨rfl, rfl⟩ := List.cons.inj heq
      exact .inl (by simpa using hopens)
    | cons b before =>
      obtain ⟨rfl, rfl⟩ := List.cons.inj heq
      exact .inr ⟨before, c', d, after, rfl, hopens, mt (escaped_cons hc before).mpr hescaped⟩
  · rintro (hhead | ⟨before, c', d, after, rfl, hopens, hescaped⟩)
    · cases rest with
      | nil => simp at hhead
      | cons d after => exact ⟨[], c, d, after, rfl, by simpa using hhead, by decide⟩
    · exact ⟨c :: before, c', d, after, rfl, hopens, mt (escaped_cons hc before).mp hescaped⟩

theorem substitutes_pair : Substitutes starts ('\\' :: c :: rest) ↔ Substitutes starts rest := by
  constructor
  · rintro ⟨before, c', d, after, heq, hopens, hescaped⟩
    match before with
    | [] =>
      obtain ⟨rfl, -⟩ := List.cons.inj heq
      simp [opens] at hopens
    | [b] =>
      obtain ⟨rfl, -⟩ := List.cons.inj heq
      exact absurd (by decide) hescaped
    | b :: b' :: before =>
      simp only [List.cons_append, List.cons.injEq] at heq
      obtain ⟨rfl, rfl, rfl⟩ := heq
      exact ⟨before, c', d, after, rfl, hopens, mt (escaped_pair c before).mpr hescaped⟩
  · rintro ⟨before, c', d, after, rfl, hopens, hescaped⟩
    exact ⟨'\\' :: c :: before, c', d, after, rfl, hopens, mt (escaped_pair c before).mp hescaped⟩

/-- What is found to be embedded are the substitutions whose names start in ASCII. -/
theorem hasEmbedded_eq_true_iff (inner : List Char) :
    hasEmbedded inner = true ↔ Substitutes isAsciiStart inner := by
  induction inner using reading_induction with
  | nil => simp [hasEmbedded, not_substitutes_nil]
  | last => simp [hasEmbedded, not_substitutes_singleton]
  | pair c rest ih => rw [substitutes_pair, ← ih, hasEmbedded]
  | plain c rest hc ih => rw [substitutes_cons hc, ← ih, hasEmbedded_cons hc, Bool.or_eq_true]

theorem isNameStart_iff {c : Char} :
    isNameStart c = true ↔ isAsciiStart c = true ∨ (0x80 ≤ c.toNat ∧ isNameStart c = true) := by
  simp only [isNameStart, Source.isNameStart, isAsciiStart, Bool.or_eq_true, Bool.and_eq_true,
    decide_eq_true_eq]
  tauto

theorem opens_isNameStart_iff {c d : Char} :
    opens isNameStart c d = true ↔
      opens isAsciiStart c d = true ∨ (c = '$' ∧ 0x80 ≤ d.toNat ∧ isNameStart d = true) := by
  have hstart := @isNameStart_iff d
  simp only [opens, Bool.or_eq_true, Bool.and_eq_true, beq_iff_eq]
  tauto

theorem substitutes_isNameStart_iff :
    Substitutes isNameStart inner ↔ Substitutes isAsciiStart inner ∨ NamesBeyondAscii inner := by
  constructor
  · rintro ⟨before, c, d, after, heq, hopens, hescaped⟩
    rcases opens_isNameStart_iff.mp hopens with hascii | ⟨rfl, hd, hstart⟩
    · exact .inl ⟨before, c, d, after, heq, hascii, hescaped⟩
    · exact .inr ⟨before, d, after, heq, hescaped, hd, hstart⟩
  · rintro (⟨before, c, d, after, heq, hopens, hescaped⟩ |
      ⟨before, d, after, heq, hescaped, hd, hstart⟩)
    · exact ⟨before, c, d, after, heq, opens_isNameStart_iff.mpr (.inl hopens), hescaped⟩
    · exact ⟨before, '$', d, after, heq, opens_isNameStart_iff.mpr (.inr ⟨rfl, hd, hstart⟩),
        hescaped⟩

theorem exists_doubleQuoted?_iff {mark : String} (hmark : mark ∈ marks) (inner : List Char) :
    (∃ s, doubleQuoted? (quoted mark '"' inner) = some s) ↔ ¬Substitutes isAsciiStart inner := by
  rw [doubleQuoted?, unquote?_quoted '"' (by decide) hmark, ← hasEmbedded_eq_true_iff]
  by_cases hembedded : hasEmbedded inner = true
  · simp [hembedded]
  · simp [hembedded]

theorem exists_quoted_of_doubleQuoted? {text s : String} (h : doubleQuoted? text = some s) :
    ∃ mark ∈ marks, ∃ inner, text = quoted mark '"' inner := by
  rw [doubleQuoted?] at h
  cases hinner : unquote? '"' text.toList with
  | none => simp [hinner] at h
  | some inner =>
    obtain ⟨mark, hmark, htext⟩ := (unquote?_eq_some_iff (by decide)).mp hinner
    exact ⟨mark, hmark, inner, htext⟩

end Literal

namespace Node

open Literal

/-- A double-quoted text is a literal exactly if it substitutes nothing, variables whose names start
beyond ASCII not counted. So a literal substitutes nothing at all, unless all that it substitutes
are such variables. -/
theorem literalString?_substitutes {n : Node} (hkind : n.kind = .doubleQuoted) :
    (∀ s, n.literalString? = some s →
      ∃ mark ∈ marks, ∃ inner, n.text? = some (quoted mark '"' inner)) ∧
    ∀ mark ∈ marks, ∀ inner, n.text? = some (quoted mark '"' inner) →
      ((∃ s, n.literalString? = some s) ↔ ¬Substitutes isAsciiStart inner) ∧
      (hasEmbedded (bytewise inner) = true ↔ Substitutes isAsciiStart inner) ∧
      (((∃ s, n.literalString? = some s) → ¬Substitutes isNameStart inner) ↔
        (NamesBeyondAscii inner → Substitutes isAsciiStart inner)) := by
  have hliteral : n.literalString? = n.text?.bind doubleQuoted? := by rw [literalString?, hkind]
  refine ⟨fun s hs => ?_, fun mark hmark inner htext => ?_⟩
  · rw [hliteral, Option.bind_eq_some_iff] at hs
    obtain ⟨text, htext, hs⟩ := hs
    obtain ⟨mark, hmark, inner, rfl⟩ := exists_quoted_of_doubleQuoted? hs
    exact ⟨mark, hmark, inner, htext⟩
  · have hvalue : (∃ s, n.literalString? = some s) ↔ ¬Substitutes isAsciiStart inner := by
      rw [hliteral, htext]
      exact exists_doubleQuoted?_iff hmark inner
    refine ⟨hvalue, ?_, ?_⟩
    · rw [hasEmbedded_bytewise, hasEmbedded_eq_true_iff]
    · rw [hvalue, substitutes_isNameStart_iff]
      tauto

/-- A `$` is not escaped after two backslashes, and escaped after three. -/
theorem literalString?_substitutes_backslashes :
    (mk .doubleQuoted .none 1 (some "b\"\\\\$x\"") []).literalString? = none ∧
    Substitutes isAsciiStart ['\\', '\\', '$', 'x'] ∧
    (mk .doubleQuoted .none 1 (some "\"\\\\\\$x\"") []).literalString? = some "\\$x" ∧
    ¬Substitutes isAsciiStart ['\\', '\\', '\\', '$', 'x'] := by
  have htwo : Substitutes isAsciiStart ['\\', '\\', '$', 'x'] :=
    ⟨['\\', '\\'], '$', 'x', [], rfl, by decide, by decide⟩
  have hvalue := ((literalString?_substitutes
    (n := mk .doubleQuoted .none 1 (some "b\"\\\\$x\"") []) rfl).2 "b" (by decide)
      ['\\', '\\', '$', 'x'] (by decide)).1
  have hthree : (mk .doubleQuoted .none 1 (some "\"\\\\\\$x\"") []).literalString? =
      some "\\$x" := by
    decide
  refine ⟨Option.eq_none_iff_forall_ne_some.mpr fun s hs => ?_, htwo, hthree, ?_⟩
  · exact hvalue.mp ⟨s, hs⟩ htwo
  · exact ((literalString?_substitutes rfl).2 "" (by decide) _ (by decide)).1.mp ⟨_, hthree⟩

end Node

/-- A test for a function whose name is the value of a variable. -/
def testOfVariable : Node :=
  parseBytes (Text.encode "<?php function_exists(\"$état\");")

/-- A variable whose name starts beyond ASCII is not seen, so that its own name is taken for that of
the function. -/
theorem literal_of_variable_beyondAscii :
    Literal.Substitutes Literal.isNameStart "$état".toList ∧
    (Node.mk .doubleQuoted .none 1 (some "\"$état\"") []).literalString? = some "$état" ∧
    ∃ call ∈ testOfVariable.preorder,
      Guard.ofCall? { id := 0 } call = some (.function "$état") :=
  ⟨⟨[], '$', 'é', "tat".toList, rfl, by decide, by decide⟩, by decide, by decide +kernel⟩

end Availability.Php
