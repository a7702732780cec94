import Availability.Proofs.ByteOrder
import Availability.Proofs.Spelling

/-!
# Values of quoted texts

A double-quoted text is read twice, once for what it embeds and once for its value. Both readings
take a backslash together with what it escapes, so a text whose special characters are all escaped
embeds nothing and has the text itself as its value. Looking for what is embedded comes to the same
on characters and on bytes.
-/
namespace Availability.Php

namespace Literal

/-- What may stand before the first quote of a quoted text. -/
def marks : List String := ["", "b", "B"]

/-- A text between two quotes, after a mark. -/
def quoted (mark : String) (quote : Char) (inner : List Char) : String :=
  mark ++ String.ofList (quote :: (inner ++ [quote]))

theorem between?_eq_some_iff {quote : Char} {cs inner : List Char} :
    between? quote cs = some inner ↔ cs = quote :: (inner ++ [quote]) := by
  cases cs with
  | nil => simp [between?]
  | cons c rest =>
    simp only [between?, Bool.and_eq_true, beq_iff_eq, Option.ite_none_right_eq_some,
      Option.some.injEq, List.cons.injEq]
    constructor
    · rintro ⟨⟨rfl, hlast⟩, rfl⟩
      obtain ⟨inner, rfl⟩ := List.getLast?_eq_some_iff.mp hlast
      simp
    · rintro ⟨rfl, rfl⟩
      simp

theorem unmarked_eq_cons_iff {quote : Char} (hquote : quote ≠ 'b' ∧ quote ≠ 'B') {text : String}
    {rest : List Char} :
    unmarked text.toList = quote :: rest ↔
      ∃ mark ∈ marks, text = mark ++ String.ofList (quote :: rest) := by
  simp only [marks, List.mem_cons, List.not_mem_nil, or_false, exists_eq_or_imp, exists_eq_left]
  simp only [← String.toList_inj, String.toList_append, String.toList_ofList]
  cases text.toList with
  | nil => simp [unmarked]
  | cons c cs =>
    by_cases hsmall : c = 'b'
    · simp [unmarked, hsmall, hquote.1.symm]
    · by_cases hcapital : c = 'B'
      · simp [unmarked, hcapital, hquote.2.symm]
      · simp [unmarked, hsmall, hcapital]

/-- What is inside of a quoted text, with or without a mark. -/
theorem unquote?_eq_some_iff {quote : Char} (hquote : quote ≠ 'b' ∧ quote ≠ 'B') {text : String}
    {inner : List Char} :
    unquote? quote text.toList = some inner ↔ ∃ mark ∈ marks, text = quoted mark quote inner := by
  rw [unquote?_eq, between?_eq_some_iff, unmarked_eq_cons_iff hquote]
  rfl

theorem unquote?_quoted (quote : Char) (hquote : quote ≠ 'b' ∧ quote ≠ 'B') {mark : String}
    (hmark : mark ∈ marks) (inner : List Char) :
    unquote? quote (quoted mark quote inner).toList = some inner :=
  (unquote?_eq_some_iff hquote).mpr ⟨mark, hmark, rfl⟩

/-! ## The two readings -/

/-- Induction along a reading that takes a backslash together with the next character. -/
@[elab_as_elim]
theorem reading_induction {motive : List Char → Prop} (cs : List Char) (nil : motive [])
    (last : motive ['\\']) (pair : ∀ c rest, motive rest → motive ('\\' :: c :: rest))
    (plain : ∀ c rest, c ≠ '\\' → motive rest → motive (c :: rest)) : motive cs := by
  fun_induction hasEmbedded cs with
  | case1 => exact nil
  | case2 => exact last
  | case3 c rest ih => exact pair c rest ih
  | case4 => exact plain '$' [] (by decide) nil
  | case5 c rest ih => exact plain '$' _ (by decide) ih
  | case6 => exact plain '{' [] (by decide) nil
  | case7 c rest ih => exact plain '{' _ (by decide) ih
  | case8 c rest hbackslash _ _ ih => exact plain c rest hbackslash ih

/-- Whether two neighbours open an embedded variable or expression, where the name of a variable
starts with a character of some class. -/
def opens (starts : Char → Bool) (c d : Char) : Bool :=
  (c == '$' && (d == '{' || starts d)) || (c == '{' && d == '$')

/-- What a name starts with in ASCII. -/
def isAsciiStart (c : Char) : Bool :=
  c == '_' || c.isAlpha

/-- Other characters than a backslash are passed one by one. -/
theorem hasEmbedded_cons {c : Char} (hc : c ≠ '\\') (rest : List Char) :
    hasEmbedded (c :: rest) = (rest.head?.any (opens isAsciiStart c) || hasEmbedded rest) := by
  by_cases hdollar : c = '$'
  · subst hdollar
    cases rest <;> simp [hasEmbedded, opens, isAsciiStart, Bool.or_assoc]
  · by_cases hbrace : c = '{'
    · subst hbrace
      cases rest <;> simp [hasEmbedded, opens]
    · have hopens : opens isAsciiStart c = fun _ => false := by
        funext d
        simp [opens, hdollar, hbrace]
      rw [hasEmbedded, hopens]
      · cases rest <;> rfl
      · exact hc
      · exact hdollar
      · exact hbrace

theorem unescape_escape (escaped cs : List Char) : unescape escaped (escape escaped cs) = cs := by
  induction cs with
  | nil => rfl
  | cons c rest ih =>
    by_cases hc : (c == '\\' || escaped.contains c) = true
    · simp only [escape, hc, if_true, unescape, ih]
    · have hbackslash : c ≠ '\\' := by
        rintro rfl
        exact hc rfl
      rw [escape, if_neg hc, unescape, ih]
      exact fun d tail heq => absurd heq hbackslash

/-- An escaped text starts with no character that has to be escaped. -/
theorem head?_escape_ne {escaped : List Char} {c : Char} (hc : c ∈ escaped) (hne : c ≠ '\\')
    (cs : List Char) : (escape escaped cs).head? ≠ some c := by
  cases cs with
  | nil => simp [escape]
  | cons d rest =>
    by_cases hd : (d == '\\' || escaped.contains d) = true
    · simpa only [escape, hd, if_true, List.head?_cons, Option.some.injEq, Ne] using hne.symm
    · simp only [escape, hd, Bool.false_eq_true, if_false, List.head?_cons, Option.some.injEq, Ne]
      rintro rfl
      exact hd (by simp [hc])

/-- A text in which every `$` is escaped embeds nothing. -/
theorem hasEmbedded_escape (escaped : List Char) (hdollar : '$' ∈ escaped) (cs : List Char) :
    hasEmbedded (escape escaped cs) = false := by
  induction cs with
  | nil => rfl
  | cons c rest ih =>
    by_cases hc : (c == '\\' || escaped.contains c) = true
    · simpa only [escape, hc, if_true, hasEmbedded] using ih
    · rw [escape, if_neg hc]
      simp only [Bool.or_eq_true, beq_iff_eq, List.contains_iff_mem, not_or] at hc
      have hne : c ≠ '$' := fun heq => hc.2 (heq ▸ hdollar)
      -- a brace could only open something with an unescaped `$` behind it
      have hhead : (escape escaped rest).head?.any (opens isAsciiStart c) = false := by
        rw [Option.any_eq_false]
        intro d hd
        have hd : d ≠ '$' := fun heq => head?_escape_ne hdollar (by decide) rest (heq ▸ hd)
        simp [opens, hne, hd]
      rw [hasEmbedded_cons hc.1, hhead, ih]
      rfl

/-! ## Bytes -/

/-- The bytes of a text, each taken for the character with its number. -/
def bytewise (cs : List Char) : List Char :=
  (Text.encode (String.ofList cs)).map fun b => Char.ofNat b.toNat

theorem bytewise_eq_flatMap (cs : List Char) :
    bytewise cs = cs.flatMap fun c => (Text.codeUnits c.toNat).map Char.ofNat := by
  rw [bytewise, Text.encode_eq_flatMap, String.toList_ofList, List.map_flatMap]
  congr 1
  funext c
  rw [← Text.map_toNat_utf8EncodeChar, List.map_map]
  rfl

theorem bytes_of_ascii {c : Char} (hc : c.toNat < 0x80) :
    (Text.codeUnits c.toNat).map Char.ofNat = [c] := by
  rw [Text.codeUnits, if_pos (by omega), List.map_singleton, Char.ofNat_toNat]

/-- All bytes of a character beyond ASCII are beyond ASCII. -/
theorem bytes_of_not_ascii {c : Char} (hc : 0x80 ≤ c.toNat) :
    ∃ d tail, (Text.codeUnits c.toNat).map Char.ofNat = d :: tail ∧ 0x80 ≤ d.toNat ∧
      ∀ e ∈ tail, 0x80 ≤ e.toNat := by
  have hbound : c.toNat < 0x110000 := by
    have hvalid : c.toNat < 0xD800 ∨ 0xDFFF < c.toNat ∧ c.toNat < 0x110000 := c.valid
    omega
  have hunits : ∀ n ∈ Text.codeUnits c.toNat, 0x80 ≤ n ∧ n < 0x100 := by
    intro n hn
    rw [Text.codeUnits, if_neg (by omega)] at hn
    split at hn
    · simp only [List.mem_cons, List.not_mem_nil, or_false] at hn
      omega
    · split at hn
      · simp only [List.mem_cons, List.not_mem_nil, or_false] at hn
        omega
      · simp only [List.mem_cons, List.not_mem_nil, or_false] at hn
        omega
  have hchars : ∀ e ∈ (Text.codeUnits c.toNat).map Char.ofNat, 0x80 ≤ e.toNat := by
    intro e he
    obtain ⟨n, hn, rfl⟩ := List.mem_map.mp he
    have hrange := hunits n hn
    have hvalid : n.isValidChar := .inl (by omega)
    rw [Char.ofNat, dif_pos hvalid]
    exact hrange.1
  obtain ⟨d, tail, heq⟩ := List.exists_cons_of_ne_nil
    (mt List.map_eq_nil_iff.mp (Text.codeUnits_ne_nil c.toNat) :
      (Text.codeUnits c.toNat).map Char.ofNat ≠ [])
  rw [heq] at hchars
  exact ⟨d, tail, heq, hchars d List.mem_cons_self,
    fun e he => hchars e (List.mem_cons_of_mem d he)⟩

theorem opens_of_not_ascii {c d : Char} (h : 0x80 ≤ c.toNat ∨ 0x80 ≤ d.toNat) :
    opens isAsciiStart c d = false := by
  have hne {c e : Char} (hc : 0x80 ≤ c.toNat) (he : e.toNat < 0x80) : c ≠ e := by
    rintro rfl
    omega
  rcases h with hc | hd
  · simp [opens, hne hc (show Char.toNat '$' < 0x80 by decide),
      hne hc (show Char.toNat '{' < 0x80 by decide)]
  · have halpha : d.isAlpha = false := by
      rw [← Bool.not_eq_true, Text.isAlpha_iff]
      omega
    simp [opens, isAsciiStart, halpha, hne hd (show Char.toNat '$' < 0x80 by decide),
      hne hd (show Char.toNat '{' < 0x80 by decide), hne hd (show Char.toNat '_' < 0x80 by decide)]

theorem hasEmbedded_append_of_not_ascii {cs : List Char} (h : ∀ c ∈ cs, 0x80 ≤ c.toNat)
    (rest : List Char) : hasEmbedded (cs ++ rest) = hasEmbedded rest := by
  induction cs with
  | nil => rfl
  | cons c cs ih =>
    have hc := h c List.mem_cons_self
    have hbackslash : c ≠ '\\' := by
      rintro rfl
      exact absurd hc (by decide)
    have hhead : (cs ++ rest).head?.any (opens isAsciiStart c) = false := by
      rw [Option.any_eq_false]
      exact fun d _ => by simp [opens_of_not_ascii (.inl hc)]
    rw [List.cons_append, hasEmbedded_cons hbackslash, hhead,
      ih fun d hd => h d (List.mem_cons_of_mem c hd)]
    rfl

theorem any_opens_bytewise (c : Char) (cs : List Char) :
    (bytewise cs).head?.any (opens isAsciiStart c) = cs.head?.any (opens isAsciiStart c) := by
  rw [bytewise_eq_flatMap]
  cases cs with
  | nil => rfl
  | cons d rest =>
    rw [List.flatMap_cons]
    by_cases hd : d.toNat < 0x80
    · rw [bytes_of_ascii hd]
      rfl
    · obtain ⟨e, tail, heq, he, -⟩ := bytes_of_not_ascii (Nat.le_of_not_lt hd)
      rw [heq]
      simp [opens_of_not_ascii (.inr he), opens_of_not_ascii (.inr (Nat.le_of_not_lt hd))]

theorem bytewise_cons (c : Char) (cs : List Char) :
    bytewise (c :: cs) = (Text.codeUnits c.toNat).map Char.ofNat ++ bytewise cs := by
  rw [bytewise_eq_flatMap, bytewise_eq_flatMap, List.flatMap_cons]

/-- The look for what is embedded finds the same on characters and on bytes. Where a backslash takes
only the first byte of a character along, the other bytes of it stand for themselves. -/
theorem hasEmbedded_bytewise (cs : List Char) : hasEmbedded (bytewise cs) = hasEmbedded cs := by
  induction cs using reading_induction with
  | nil => rw [bytewise_eq_flatMap]; rfl
  | last => rw [bytewise_eq_flatMap]; rfl
  | pair c rest ih =>
    rw [bytewise_cons, bytes_of_ascii (by decide), bytewise_cons]
    by_cases hc : c.toNat < 0x80
    · rw [bytes_of_ascii hc]
      exact ih
    · obtain ⟨d, tail, heq, -, htail⟩ := bytes_of_not_ascii (Nat.le_of_not_lt hc)
      rw [heq]
      exact (hasEmbedded_append_of_not_ascii htail _).trans ih
  | plain c rest hc ih =>
    rw [bytewise_cons]
    by_cases hascii : c.toNat < 0x80
    · rw [bytes_of_ascii hascii, List.singleton_append, hasEmbedded_cons hc, hasEmbedded_cons hc,
        any_opens_bytewise, ih]
    · have hle := Nat.le_of_not_lt hascii
      obtain ⟨d, tail, heq, hd, htail⟩ := bytes_of_not_ascii hle
      have hplain : hasEmbedded (c :: rest) = hasEmbedded rest :=
        hasEmbedded_append_of_not_ascii (List.forall_mem_singleton.mpr hle) rest
      rw [heq, hasEmbedded_append_of_not_ascii (List.forall_mem_cons.mpr ⟨hd, htail⟩), hplain, ih]

theorem singleQuoted?_escape {mark : String} (hmark : mark ∈ marks) (s : String) :
    singleQuoted? (quoted mark '\x27' (escape ['\x27'] s.toList)) = some s := by
  have hinner := unquote?_quoted '\x27' (by decide) hmark (escape ['\x27'] s.toList)
  rw [singleQuoted?, hinner, Option.map_some, unescape_escape, String.ofList_toList]

theorem doubleQuoted?_escape {mark : String} (hmark : mark ∈ marks) (s : String) :
    doubleQuoted? (quoted mark '"' (escape ['"', '$'] s.toList)) = some s := by
  have hinner := unquote?_quoted '"' (by decide) hmark (escape ['"', '$'] s.toList)
  have hnone := hasEmbedded_escape ['"', '$'] (by decide) s.toList
  simp only [doubleQuoted?, hinner, hnone, Bool.false_eq_true, if_false, unescape_escape,
    String.ofList_toList]

end Literal

namespace Node

open Literal

/-- Quoted with every special character escaped, a text is a literal of which it is the value: in
single quotes backslashes and single quotes have to be escaped, in double quotes backslashes, double
quotes and `$`. No variable is found in such a text, on its characters or on its bytes. -/
theorem literalString?_escape {n : Node} {mark : String} (hmark : mark ∈ marks) (s : String) :
    (n.kind = .singleQuoted → n.text? = some (quoted mark '\x27' (escape ['\x27'] s.toList)) →
      n.literalString? = some s) ∧
    (n.kind = .doubleQuoted → n.text? = some (quoted mark '"' (escape ['"', '$'] s.toList)) →
      n.literalString? = some s) ∧
    hasEmbedded (escape ['"', '$'] s.toList) = false ∧
    hasEmbedded (bytewise (escape ['"', '$'] s.toList)) = false := by
  have hnone := hasEmbedded_escape ['"', '$'] (by decide) s.toList
  refine ⟨fun hkind htext => ?_, fun hkind htext => ?_, hnone, ?_⟩
  · rw [literalString?, hkind, htext]
    exact singleQuoted?_escape hmark s
  · rw [literalString?, hkind, htext]
    exact doubleQuoted?_escape hmark s
  · rw [hasEmbedded_bytewise, hnone]

/-- A text with all that is special: a backslash before a quote, a brace before a `$`, and a
character of two bytes. -/
theorem literalString?_escape_awkward :
    (mk .singleQuoted .none 1 (some "b'\\\\\\'\x7b$é'") []).literalString? = some "\\'\x7b$é" ∧
    (mk .doubleQuoted .none 1 (some "B\"\\\\'\x7b\\$é\"") []).literalString? =
      some "\\'\x7b$é" := by
  obtain ⟨hsingle, -⟩ := @literalString?_escape
    (mk .singleQuoted .none 1 (some "b'\\\\\\'\x7b$é'") []) "b" (by decide) "\\'\x7b$é"
  obtain ⟨-, hdouble, -⟩ := @literalString?_escape
    (mk .doubleQuoted .none 1 (some "B\"\\\\'\x7b\\$é\"") []) "B" (by decide) "\\'\x7b$é"
  exact ⟨hsingle rfl (by decide), hdouble rfl (by decide)⟩

end Node

end Availability.Php
