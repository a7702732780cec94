import Availability.DocTags
import Mathlib.Data.List.TakeWhile
import Mathlib.Tactic.Common

/-!
# Tags as they stand in a comment

What the tags of a comment are is said here by how the text divides: a tag, blanks, and a value that
goes on as long as it can, at the first place where there is such a tag.
-/
namespace Availability.DocTags

section First

variable {α : Type} {At : List Char → α → Prop} {text : List Char} {c : Char} {a b : α}

/-- What there is at the first place of a text where there is something. -/
def FirstIn (At : List Char → α → Prop) (text : List Char) (a : α) : Prop :=
  ∃ before rest, text = before ++ rest ∧ At rest a ∧
    ∀ before' rest' a', text = before' ++ rest' → At rest' a' → before.length ≤ before'.length

theorem firstIn_of_at (h : At text b) : FirstIn At text a ↔ At text a := by
  constructor
  · rintro ⟨before, rest, hsplit, hat, hfirst⟩
    have hlength := hfirst [] text b rfl h
    obtain rfl : before = [] := List.length_eq_zero_iff.mp (by simpa using hlength)
    rwa [hsplit]
  · intro hat
    exact ⟨[], text, rfl, hat, fun _ _ _ _ _ => Nat.zero_le _⟩

theorem firstIn_cons (h : ∀ b, ¬At (c :: text) b) :
    FirstIn At (c :: text) a ↔ FirstIn At text a := by
  constructor
  · rintro ⟨before, rest, hsplit, hat, hfirst⟩
    cases before with
    | nil => exact absurd (hsplit ▸ hat) (h a)
    | cons c' before =>
      obtain ⟨rfl, rfl⟩ := List.cons.inj hsplit
      refine ⟨before, rest, rfl, hat, fun before' rest' a' hsplit' hat' => ?_⟩
      have hle := hfirst (c :: before') rest' a' (by rw [hsplit', List.cons_append]) hat'
      simpa using hle
  · rintro ⟨before, rest, rfl, hat, hfirst⟩
    refine ⟨c :: before, rest, rfl, hat, fun before' rest' a' hsplit' hat' => ?_⟩
    cases before' with
    | nil => exact absurd (hsplit' ▸ hat') (h a')
    | cons c' before' =>
      have hle := hfirst before' rest' a' (List.cons.inj hsplit').2 hat'
      simpa using hle

/-- If there is something anywhere, there is a first place. -/
theorem exists_firstIn_iff :
    (∃ a, FirstIn At text a) ↔ ∃ before rest a, text = before ++ rest ∧ At rest a := by
  constructor
  · rintro ⟨a, before, rest, hsplit, hat, -⟩
    exact ⟨before, rest, a, hsplit, hat⟩
  · rintro ⟨before, rest, a, hsplit, hat⟩
    induction before generalizing text with
    | nil =>
      obtain rfl : text = rest := hsplit
      exact ⟨a, (firstIn_of_at hat).mpr hat⟩
    | cons c before ih =>
      subst hsplit
      by_cases hhere : ∃ b, At (c :: (before ++ rest)) b
      · obtain ⟨b, hb⟩ := hhere
        exact ⟨b, (firstIn_of_at hb).mpr hb⟩
      · obtain ⟨b, hb⟩ := ih rfl
        exact ⟨b, (firstIn_cons (not_exists.mp hhere)).mpr hb⟩

end First

/-- A text begins with a tag, and what follows it gives something. -/
def Tagged {α : Type} (tag : List Char) (f : List Char → Option α) (rest : List Char) (a : α) :
    Prop :=
  ∃ after, rest = tag ++ after ∧ f after = some a

theorem firstAfter_eq_some_iff {α : Type} {tag : List Char} (htag : tag ≠ [])
    {f : List Char → Option α} {text : List Char} {a : α} :
    firstAfter tag f text = some a ↔ FirstIn (Tagged tag f) text a := by
  have htagged (rest : List Char) (a : α) :
      (Text.dropStart? tag rest).bind f = some a ↔ Tagged tag f rest a := by
    simp only [Option.bind_eq_some_iff, Text.dropStart?_eq_some_iff, Tagged]
  induction text with
  | nil =>
    have hnone (b : α) : ¬Tagged tag f [] b := by
      rintro ⟨after, hsplit, -⟩
      exact htag (List.append_eq_nil_iff.mp hsplit.symm).1
    simp only [firstAfter, reduceCtorEq, false_iff]
    rintro ⟨before, rest, hsplit, hat, -⟩
    rw [(List.append_eq_nil_iff.mp hsplit.symm).2] at hat
    exact hnone a hat
  | cons c text ih =>
    rw [firstAfter]
    cases hhere : (Text.dropStart? tag (c :: text)).bind f with
    | some b => rw [firstIn_of_at ((htagged _ b).mp hhere), ← htagged, hhere]
    | none =>
      have hnone (b : α) : ¬Tagged tag f (c :: text) b := by
        rw [← htagged, hhere]
        exact Option.some_ne_none b ∘ Eq.symm
      rw [firstIn_cons hnone]
      exact ih

section Values

variable {blank : Char → Bool} {cs : List Char} {value : String}

/-- A text goes on with blanks and then with a value, which ends where it cannot go on. -/
def ValueAfter (blank : Char → Bool) (cs : List Char) (value : String) : Prop :=
  ∃ blanks rest, cs = blanks ++ value.toList ++ rest ∧
    blanks ≠ [] ∧ (∀ c ∈ blanks, blank c = true) ∧
    value.toList ≠ [] ∧ (∀ c ∈ value.toList, isValueChar c = true) ∧
    ∀ c ∈ rest.head?, isValueChar c = false

theorem takeWhile_of_head {p : Char → Bool} (h : ∀ c ∈ cs.head?, p c = false) :
    cs.takeWhile p = [] ∧ cs.dropWhile p = cs := by
  cases cs with
  | nil => simp
  | cons c cs => simp [h c rfl]

theorem value?_eq_some_iff :
    value? cs = some value ↔
      value.toList ≠ [] ∧ cs.takeWhile isValueChar = value.toList := by
  unfold value?
  split
  · rename_i hnil
    simp only [reduceCtorEq, false_iff, hnil, not_and]
    exact fun hne heq => hne heq.symm
  · rename_i hcons
    constructor
    · intro h
      obtain rfl := Option.some.inj h
      simpa using hcons
    · rintro ⟨-, heq⟩
      rw [heq, String.ofList_toList]

/-- The blanks and the value are divided in one way only, since no blank can be part of a value. -/
theorem valueAfter_iff (hblank : ∀ c, blank c = true → isValueChar c = false) :
    ValueAfter blank cs value ↔
      cs.takeWhile blank ≠ [] ∧ value? (cs.dropWhile blank) = some value := by
  rw [value?_eq_some_iff]
  constructor
  · rintro ⟨blanks, rest, rfl, hblanks, hall, hvalue, hchars, hend⟩
    -- the value begins with a character that is no blank
    have hstop : ∀ c ∈ (value.toList ++ rest).head?, blank c = false := by
      intro c hc
      have hhead : c ∈ value.toList.head? := by
        cases hlist : value.toList with
        | nil => exact absurd hlist hvalue
        | cons first chars => simpa [hlist] using hc
      have hchar := hchars c (List.mem_of_mem_head? hhead)
      cases hc : blank c with
      | false => rfl
      | true => simp [hblank c hc] at hchar
    obtain ⟨htake, hdrop⟩ := takeWhile_of_head hstop
    obtain ⟨hrest, -⟩ := takeWhile_of_head hend
    rw [List.append_assoc, List.takeWhile_append_of_pos hall, List.dropWhile_append_of_pos hall,
      htake, hdrop, List.takeWhile_append_of_pos hchars, hrest]
    simp [hblanks, hvalue]
  · rintro ⟨hblanks, hvalue, htake⟩
    refine ⟨cs.takeWhile blank, (cs.dropWhile blank).dropWhile isValueChar, ?_, hblanks, ?_, hvalue,
      ?_, ?_⟩
    · rw [List.append_assoc, ← htake, List.takeWhile_append_dropWhile,
        List.takeWhile_append_dropWhile]
    · exact fun c => List.mem_takeWhile_imp
    · rw [← htake]
      exact fun c => List.mem_takeWhile_imp
    · intro c hc
      have hnot := List.head?_dropWhile_not isValueChar (cs.dropWhile blank)
      rwa [hc] at hnot

theorem inRanges_eq_false {n low high : Nat} (hlow : low ≤ n) (hhigh : n ≤ high)
    {ranges : List (Nat × Nat)} (h : ∀ r ∈ ranges, r.2 < low ∨ high < r.1) :
    Text.inRanges n ranges = false := by
  induction ranges with
  | nil => rfl
  | cons r ranges ih =>
    obtain ⟨hr, hrest⟩ := List.forall_mem_cons.mp h
    rw [Text.inRanges, ih hrest, Bool.or_false, Bool.and_eq_false_iff, decide_eq_false_iff_not,
      decide_eq_false_iff_not]
    omega

/-- Where blanks beyond ASCII stand, each time without a word character from end to end. -/
def blankGaps : List (Nat × Nat) := [
  (0x85, 0xA0), (0x1680, 0x1680), (0x2000, 0x200A), (0x2028, 0x202F), (0x205F, 0x205F),
  (0x3000, 0x3000)]

theorem wordRanges_avoid_blankGaps :
    ∀ gap ∈ blankGaps, ∀ r ∈ Text.wordRanges, r.2 < gap.1 ∨ gap.2 < r.1 := by
  decide +kernel

/-- No blank can be part of a value. -/
theorem isValueChar_of_isWhitespace {c : Char} (h : Text.isWhitespace c = true) :
    isValueChar c = false := by
  have hcodes : ∀ n ∈ [9, 10, 11, 12, 13, 0x20, 0x85, 0xA0, 0x1680, 0x2000, 0x2001, 0x2002, 0x2003,
      0x2004, 0x2005, 0x2006, 0x2007, 0x2008, 0x2009, 0x200A, 0x2028, 0x2029, 0x202F, 0x205F,
      0x3000], (Char.ofNat n).isAlphanum = false ∧ Char.ofNat n ∉ ['_', '.', '-'] := by
    decide +kernel
  simp only [Text.isWhitespace, Bool.or_eq_true, Bool.and_eq_true, decide_eq_true_iff,
    beq_iff_eq] at h
  have hplain := hcodes c.toNat (by
    simp only [List.mem_cons, List.not_mem_nil, or_false]
    omega)
  rw [Char.ofNat_toNat] at hplain
  have hranges : (decide (0x80 ≤ c.toNat) && Text.inRanges c.toNat Text.wordRanges) = false := by
    by_cases hascii : 0x80 ≤ c.toNat
    · obtain ⟨gap, hgap, hlow, hhigh⟩ : ∃ gap ∈ blankGaps, gap.1 ≤ c.toNat ∧ c.toNat ≤ gap.2 := by
        simp only [blankGaps, List.mem_cons, List.not_mem_nil, or_false, exists_eq_or_imp,
          exists_eq_left]
        omega
      rw [inRanges_eq_false hlow hhigh (wordRanges_avoid_blankGaps gap hgap), Bool.and_false]
    · rw [decide_eq_false hascii, Bool.false_and]
  simp only [List.mem_cons, List.not_mem_nil, or_false, not_or] at hplain
  simp [isValueChar, Text.isWord, hranges, hplain]

theorem isValueChar_of_isBlank {c : Char} (h : isBlank c = true) : isValueChar c = false := by
  have hspace : Text.isWhitespace c = true := by
    simp only [isBlank, Bool.or_eq_true, beq_iff_eq] at h
    rcases h with rfl | rfl <;> decide
  exact isValueChar_of_isWhitespace hspace

theorem sinceValue?_eq_some_iff :
    sinceValue? cs = some value ↔ ValueAfter Text.isWhitespace cs value := by
  rw [valueAfter_iff fun _ => isValueChar_of_isWhitespace, sinceValue?]
  split
  · rename_i hnil
    simp [hnil]
  · rename_i hcons
    simp [hcons]

theorem deprecation?_eq_some_iff {value : Option String} :
    deprecation? cs = some value ↔
      (∀ c ∈ cs.head?, Text.isWord c = false) ∧
        ∀ v, value = some v ↔ ValueAfter isBlank cs v := by
  have hword : cs.head?.any Text.isWord = true ↔ ¬∀ c ∈ cs.head?, Text.isWord c = false := by
    cases cs <;> simp
  simp only [valueAfter_iff fun _ => isValueChar_of_isBlank, deprecation?]
  split
  · rename_i hlonger
    simp only [reduceCtorEq, false_iff, not_and]
    exact fun hall => absurd hall (hword.mp hlonger)
  · rename_i hends
    have hall : ∀ c ∈ cs.head?, Text.isWord c = false := by
      by_contra hnot
      exact hends (hword.mpr hnot)
    rw [and_iff_right hall]
    split
    · rename_i hnil
      simp [hnil, Option.eq_none_iff_forall_ne_some, eq_comm]
    · rename_i hcons
      simp only [hcons, ne_eq, reduceCtorEq, not_false_eq_true, true_and, Option.some.injEq]
      constructor
      · rintro rfl
        simp
      · intro h
        exact (Option.ext fun v => (h v)).symm

end Values

/-- The tag for the version that brought a symbol, with its value. -/
def SinceTag (text : List Char) (value : String) : Prop :=
  ∃ after, text = "@since".toList ++ after ∧ ValueAfter Text.isWhitespace after value

/-- The tag of a deprecated symbol, which must not go on as a longer word, with the word after it on
the same line, if there is one. -/
def DeprecatedTag (text : List Char) (value : Option String) : Prop :=
  ∃ after, text = "@deprecated".toList ++ after ∧ (∀ c ∈ after.head?, Text.isWord c = false) ∧
    ∀ v, value = some v ↔ ValueAfter isBlank after v

/-- The tags are those that a doc comment has first; without a comment there are none. -/
structure Describes (tags : DocTags) (doc : Option String) : Prop where
  since : ∀ value, tags.since = some value ↔
    ∃ text, doc = some text ∧ FirstIn SinceTag text.toList value
  deprecated : tags.deprecated = true ↔
    ∃ text, doc = some text ∧
      ∃ before rest value, text.toList = before ++ rest ∧ DeprecatedTag rest value
  deprecatedValue : ∀ value, tags.deprecatedValue = some value ↔
    ∃ text, doc = some text ∧ FirstIn DeprecatedTag text.toList (some value)

theorem describes_ofComment (text : String) : (ofComment text).Describes (some text) := by
  have hsince : Tagged "@since".toList sinceValue? = SinceTag := by
    funext rest value
    simp only [Tagged, SinceTag, sinceValue?_eq_some_iff]
  have hdeprecated : Tagged "@deprecated".toList deprecation? = DeprecatedTag := by
    funext rest value
    simp only [Tagged, DeprecatedTag, deprecation?_eq_some_iff]
  refine ⟨fun value => ?_, ?_, fun value => ?_⟩
  · simp only [ofComment, Option.some.injEq, exists_eq_left']
    rw [firstAfter_eq_some_iff (by decide), hsince]
  · simp only [ofComment, Option.some.injEq, exists_eq_left']
    rw [Option.isSome_iff_exists, ← exists_firstIn_iff, ← hdeprecated]
    simp only [firstAfter_eq_some_iff (show "@deprecated".toList ≠ [] by decide)]
  · simp only [ofComment, Option.some.injEq, exists_eq_left']
    rw [Option.join_eq_some_iff, firstAfter_eq_some_iff (by decide), hdeprecated]

theorem describes_none : Describes {} none :=
  ⟨by simp, by simp, by simp⟩

/-- The tags of a doc comment that there may be. -/
theorem describes_getD (doc : Option String) :
    ((doc.map ofComment).getD {}).Describes doc := by
  cases doc with
  | none => exact describes_none
  | some text => exact describes_ofComment text

theorem Describes.unique {tags tags' : DocTags} {doc : Option String} (h : tags.Describes doc)
    (h' : tags'.Describes doc) : tags = tags' := by
  have hsince : tags.since = tags'.since :=
    Option.ext fun value => (h.since value).trans (h'.since value).symm
  have hdeprecated : tags.deprecated = tags'.deprecated :=
    Bool.eq_iff_iff.mpr (h.deprecated.trans h'.deprecated.symm)
  have hvalue : tags.deprecatedValue = tags'.deprecatedValue :=
    Option.ext fun value => (h.deprecatedValue value).trans (h'.deprecatedValue value).symm
  cases tags
  cases tags'
  simp_all

end Availability.DocTags
