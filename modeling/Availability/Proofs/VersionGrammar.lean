import Availability.Proofs.VersionText
import Mathlib.Data.List.Lex
import Mathlib.Data.Nat.Digits.Defs

/-!
# Which texts are versions

A text is read as a version exactly if it consists of two or three numerals with points between
them, each for a number below 2 ^ 32. The version then has the numbers that the numerals denote, in
their order, with 0 for a third one that is missing. Versions are ordered like these numbers.
-/
namespace Availability

namespace Text

variable {sep : Char} {cs : List Char} {pieces : List (List Char)}

theorem split_ne_nil (sep : Char) (cs : List Char) : split sep cs ≠ [] := by
  cases cs with
  | nil => simp [split]
  | cons c cs =>
    rw [split]
    split
    · simp
    · split <;> simp

theorem split_concat (sep : Char) (cs ds : List Char) :
    split sep (cs ++ sep :: ds) = split sep cs ++ split sep ds := by
  induction cs with
  | nil => simp [split]
  | cons c cs ih =>
    by_cases hc : c = sep
    · simp [split, hc, ih]
    · obtain ⟨piece, pieces, hsplit⟩ := List.exists_cons_of_ne_nil (split_ne_nil sep cs)
      simp [split, hc, ih, hsplit]

theorem intercalate_split (sep : Char) (cs : List Char) :
    [sep].intercalate (split sep cs) = cs := by
  induction cs with
  | nil => rfl
  | cons c cs ih =>
    obtain ⟨piece, pieces, hsplit⟩ := List.exists_cons_of_ne_nil (split_ne_nil sep cs)
    rw [hsplit] at ih
    by_cases hc : c = sep
    · subst hc
      simpa [split, hsplit] using ih
    · cases pieces with
      | nil => simpa [split, hc, hsplit] using ih
      | cons next pieces => simpa [split, hc, hsplit] using ih

theorem not_mem_of_mem_split {piece : List Char} (h : piece ∈ split sep cs) : sep ∉ piece := by
  induction cs generalizing piece with
  | nil =>
    obtain rfl : piece = [] := by simpa [split] using h
    simp
  | cons c cs ih =>
    obtain ⟨first, rest, hsplit⟩ := List.exists_cons_of_ne_nil (split_ne_nil sep cs)
    rw [hsplit] at ih
    by_cases hc : c = sep
    · simp only [split, hc, hsplit, beq_self_eq_true, if_true] at h
      rcases List.mem_cons.mp h with rfl | h
      · simp
      · exact ih h
    · simp only [split, hsplit, beq_eq_false_iff_ne.mpr hc, Bool.false_eq_true, if_false] at h
      rcases List.mem_cons.mp h with rfl | h
      · simpa [Ne.symm hc] using ih List.mem_cons_self
      · exact ih (List.mem_cons_of_mem first h)

theorem split_intercalate (hne : pieces ≠ []) (hpieces : ∀ piece ∈ pieces, sep ∉ piece) :
    split sep ([sep].intercalate pieces) = pieces := by
  induction pieces with
  | nil => contradiction
  | cons piece pieces ih =>
    have hpiece := hpieces piece List.mem_cons_self
    cases pieces with
    | nil => simpa using split_of_not_mem hpiece
    | cons next pieces =>
      have hrest := ih (by simp) fun other hother =>
        hpieces other (List.mem_cons_of_mem piece hother)
      rw [List.intercalate_cons_cons, List.append_assoc, List.singleton_append, split_append hpiece,
        hrest]

/-- The pieces of a text are those that it is put together from, if none of them has a separator. -/
theorem split_eq_iff :
    split sep cs = pieces ↔
      cs = [sep].intercalate pieces ∧ pieces ≠ [] ∧ ∀ piece ∈ pieces, sep ∉ piece := by
  constructor
  · rintro rfl
    exact ⟨(intercalate_split sep cs).symm, split_ne_nil sep cs, fun _ => not_mem_of_mem_split⟩
  · rintro ⟨rfl, hne, hpieces⟩
    exact split_intercalate hne hpieces

end Text

namespace Version

variable {cs : List Char} {s : String} {v : Version}

/-- The number that decimal digits denote, the last digit counting once. -/
def denoted (digits : List Char) : Nat :=
  Nat.ofDigits 10 (digits.reverse.map fun c => c.toNat - '0'.toNat)

theorem digitsValue_eq_denoted (digits : List Char) : digitsValue digits = denoted digits := by
  rw [denoted, Nat.ofDigits_eq_foldr, List.foldr_map, List.foldr_reverse, digitsValue]
  simp only [Nat.cast_id, Nat.mul_comm, Nat.add_comm]

/-- A number of a version as it is written. -/
structure Numeral (cs : List Char) : Prop where
  nonempty : cs ≠ []
  digits : ∀ c ∈ cs, '0' ≤ c ∧ c ≤ '9'
  bounded : denoted cs ≤ 2 ^ 32 - 1

theorem isDigit_iff {c : Char} : c.isDigit = true ↔ '0' ≤ c ∧ c ≤ '9' := by
  simp [Char.isDigit, Char.le_def]

theorem Numeral.point_not_mem (h : Numeral cs) : '.' ∉ cs := fun hmem =>
  absurd (h.digits '.' hmem) (by decide)

/-- Numerals are read as the numbers that they denote, and nothing else is read. -/
theorem number?_eq_some_iff {n : UInt32} :
    number? cs = some n ↔ Numeral cs ∧ n.toNat = denoted cs := by
  have hsize : UInt32.size = 2 ^ 32 := rfl
  by_cases hform : cs ≠ [] ∧ ∀ c ∈ cs, '0' ≤ c ∧ c ≤ '9'
  · have hshape : (cs.isEmpty || !cs.all Char.isDigit) = false := by
      have hall : cs.all Char.isDigit = true :=
        List.all_eq_true.mpr fun c hc => isDigit_iff.mpr (hform.2 c hc)
      simp [hall, hform.1]
    simp only [number?, hshape, digitsValue_eq_denoted, Bool.false_eq_true, if_false]
    by_cases hbound : denoted cs < UInt32.size
    · have hnumeral : Numeral cs := ⟨hform.1, hform.2, by omega⟩
      rw [if_pos hbound, Option.some.injEq, ← UInt32.toNat_inj, UInt32.toNat_ofNat_of_lt' hbound]
      simp [hnumeral, eq_comm]
    · rw [if_neg hbound]
      have hnot : ¬Numeral cs := fun h => by
        have := h.bounded
        omega
      simp [hnot]
  · have hshape : (cs.isEmpty || !cs.all Char.isDigit) = true := by
      by_contra hnone
      refine hform ⟨fun hnil => hnone (by simp [hnil]), fun c hc => isDigit_iff.mp ?_⟩
      have hall : cs.all Char.isDigit = true := by simp_all
      exact List.all_eq_true.mp hall c hc
    have hnot : ¬Numeral cs := fun h => hform ⟨h.nonempty, h.digits⟩
    simp [number?, hshape, hnot]

/-- The numbers of a version, the most significant first. -/
def numbers (v : Version) : List Nat :=
  [v.major.toNat, v.minor.toNat, v.patch.toNat]

/-- A text that consists of two or three numerals with points between them. -/
structure Spelled (s : String) (numerals : List (List Char)) : Prop where
  text : s.toList = ['.'].intercalate numerals
  count : numerals.length = 2 ∨ numerals.length = 3
  numeral : ∀ cs ∈ numerals, Numeral cs

/-- The numbers that numerals give to a version: a third one that is missing is 0. -/
def given (numerals : List (List Char)) : List Nat :=
  (numerals.map denoted ++ [0]).take 3

theorem ofChars?_eq_some_iff :
    ofChars? cs = some v ↔
      ((Text.split '.' cs).length = 2 ∨ (Text.split '.' cs).length = 3) ∧
        (∀ part ∈ Text.split '.' cs, Numeral part) ∧ v.numbers = given (Text.split '.' cs) := by
  obtain ⟨major, minor, patch⟩ := v
  rw [ofChars?]
  rcases Text.split '.' cs with _ | ⟨a, _ | ⟨b, _ | ⟨c, _ | ⟨d, rest⟩⟩⟩⟩
  · simp
  · simp
  · have hread : (do return ⟨← number? a, ← number? b, 0⟩) = some (mk major minor patch) ↔
        number? a = some major ∧ number? b = some minor ∧ patch.toNat = 0 := by
      have hpatch : 0 = patch ↔ patch.toNat = 0 := by rw [← UInt32.toNat_inj]; simp [eq_comm]
      simp [Option.bind_eq_some_iff, hpatch]
    have hgiven : numbers ⟨major, minor, patch⟩ = given [a, b] ↔
        major.toNat = denoted a ∧ minor.toNat = denoted b ∧ patch.toNat = 0 := by
      simp [numbers, given]
    rw [hread, hgiven, number?_eq_some_iff, number?_eq_some_iff]
    simp only [List.length_cons, List.length_nil, List.forall_mem_cons]
    tauto
  · have hread : (do return ⟨← number? a, ← number? b, ← number? c⟩) =
          some (mk major minor patch) ↔
        number? a = some major ∧ number? b = some minor ∧ number? c = some patch := by
      simp [Option.bind_eq_some_iff]
    have hgiven : numbers ⟨major, minor, patch⟩ = given [a, b, c] ↔
        major.toNat = denoted a ∧ minor.toNat = denoted b ∧ patch.toNat = denoted c := by
      simp [numbers, given]
    rw [hread, hgiven, number?_eq_some_iff, number?_eq_some_iff, number?_eq_some_iff]
    simp only [List.length_cons, List.length_nil, List.forall_mem_cons]
    tauto
  · simp

theorem Spelled.split_eq {numerals : List (List Char)} (h : Spelled s numerals) :
    Text.split '.' s.toList = numerals := by
  have hne : numerals ≠ [] := by
    rintro rfl
    simpa using h.count
  exact Text.split_eq_iff.mpr ⟨h.text, hne, fun cs hcs => (h.numeral cs hcs).point_not_mem⟩

theorem parse_eq_ok_iff :
    parse s = .ok v ↔ ∃ numerals, Spelled s numerals ∧ v.numbers = given numerals := by
  have hparse : parse s = .ok v ↔ ofChars? s.toList = some v := by
    rw [parse, ofString?]
    cases ofChars? s.toList <;> simp
  rw [hparse, ofChars?_eq_some_iff]
  constructor
  · rintro ⟨hcount, hnumerals, hnumbers⟩
    exact ⟨_, ⟨(Text.intercalate_split '.' s.toList).symm, hcount, hnumerals⟩, hnumbers⟩
  · rintro ⟨numerals, hspelled, hnumbers⟩
    rw [hspelled.split_eq]
    exact ⟨hspelled.count, hspelled.numeral, hnumbers⟩

/-- Numbers below 2 ^ 32 fit into a version. -/
theorem Spelled.exists_numbers {numerals : List (List Char)} (h : Spelled s numerals) :
    ∃ v, numbers v = given numerals := by
  have fits {cs : List Char} (hcs : cs ∈ numerals) :
      (UInt32.ofNat (denoted cs)).toNat = denoted cs := by
    have hbound := (h.numeral cs hcs).bounded
    refine UInt32.toNat_ofNat_of_lt' ?_
    change denoted cs < 2 ^ 32
    omega
  match numerals, h.count with
  | [a, b], _ =>
    refine ⟨⟨.ofNat (denoted a), .ofNat (denoted b), 0⟩, ?_⟩
    simp [numbers, given, fits]
  | [a, b, c], _ =>
    refine ⟨⟨.ofNat (denoted a), .ofNat (denoted b), .ofNat (denoted c)⟩, ?_⟩
    simp [numbers, given, fits]

theorem exists_parse_iff : (∃ v, parse s = .ok v) ↔ ∃ numerals, Spelled s numerals := by
  constructor
  · rintro ⟨v, hv⟩
    obtain ⟨numerals, hspelled, -⟩ := parse_eq_ok_iff.mp hv
    exact ⟨numerals, hspelled⟩
  · rintro ⟨numerals, hspelled⟩
    obtain ⟨v, hv⟩ := hspelled.exists_numbers
    exact ⟨v, parse_eq_ok_iff.mpr ⟨numerals, hspelled, hv⟩⟩

theorem parse_toString (v : Version) : parse v.toString = .ok v := by
  rw [parse, ofString?_toString]

theorem numbers_inj {v v' : Version} : v.numbers = v'.numbers ↔ v = v' := by
  obtain ⟨major, minor, patch⟩ := v
  obtain ⟨major', minor', patch'⟩ := v'
  simp [numbers, UInt32.toNat_inj]

/-- Versions are compared like their numbers, one after another. -/
theorem compare_eq_lt_iff {v v' : Version} :
    v.compare v' = .lt ↔ List.Lex (· < ·) v.numbers v'.numbers := by
  simp only [compare, numbers, Ordering.then_eq_lt, Nat.compare_eq_lt, Nat.compare_eq_eq,
    List.cons_lex_cons_iff, List.not_lex_nil, and_false, or_false]

theorem compare_eq_eq_iff {v v' : Version} : v.compare v' = .eq ↔ v = v' := by
  rw [← numbers_inj]
  simp [compare, numbers, Ordering.then_eq_eq]

theorem le_iff_lex {v v' : Version} :
    v ≤ v' ↔ v = v' ∨ List.Lex (· < ·) v.numbers v'.numbers := by
  rw [← compare_eq_eq_iff, ← compare_eq_lt_iff]
  change (v.compare v').isLE = true ↔ _
  cases v.compare v' <;> simp

/-- A text is read exactly if it consists of two or three numerals with points between them, and its
version has the numbers that they denote. Every version is read back from its text, also one that
was read from another text. Versions are ordered by their numbers, first by the first of them. -/
theorem parse_grammar :
    (∀ s, (∃ v, parse s = .ok v) ↔ ∃ numerals, Spelled s numerals) ∧
      (∀ s numerals v, Spelled s numerals → (parse s = .ok v ↔ v.numbers = given numerals)) ∧
      (∀ v : Version, parse v.toString = .ok v) ∧
      (∀ s v, parse s = .ok v → parse v.toString = .ok v) ∧
      ∀ v v' : Version,
        (v.compare v' = .lt ↔ List.Lex (· < ·) v.numbers v'.numbers) ∧
        (v.compare v' = .eq ↔ v.numbers = v'.numbers) ∧
        (v ≤ v' ↔ v = v' ∨ List.Lex (· < ·) v.numbers v'.numbers) := by
  refine ⟨fun s => exists_parse_iff, fun s numerals v hspelled => ?_, parse_toString,
    fun s v _ => parse_toString v, fun v v' => ⟨compare_eq_lt_iff, ?_, le_iff_lex⟩⟩
  · rw [parse_eq_ok_iff]
    constructor
    · rintro ⟨others, hothers, hnumbers⟩
      rw [hnumbers, ← hothers.split_eq, hspelled.split_eq]
    · intro hnumbers
      exact ⟨numerals, hspelled, hnumbers⟩
  · rw [compare_eq_eq_iff, numbers_inj]

-- zeros at the start do not count, but 2 ^ 32 is too much in any place
example :
    ofString? "007.4294967295" = some ⟨7, 4294967295, 0⟩ ∧ ofString? "6.0.4294967296" = none := by
  decide

end Version

end Availability
