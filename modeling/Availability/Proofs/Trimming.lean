import Availability.Text.Whitespace
import Mathlib.Data.List.DropRight

/-!
# Trimming

Whitespace at an end of a text does not matter to its trimmed form, which is a part of the text that
neither starts nor ends with whitespace.
-/
namespace Availability.Text

variable {cs blanks : List Char} {c : Char}

theorem trimStart_append_of_blank (hblanks : ∀ b ∈ blanks, isWhitespace b = true) :
    trimStart (blanks ++ cs) = trimStart cs :=
  List.dropWhile_append_of_pos hblanks

theorem trimStart_append (cs ds : List Char) :
    trimStart (cs ++ ds) = if trimStart cs = [] then trimStart ds else trimStart cs ++ ds := by
  rw [trimStart, List.dropWhile_append]
  by_cases h : cs.dropWhile isWhitespace = [] <;> simp [trimStart, h]

theorem trimStart_eq_self (h : ∀ b ∈ cs.head?, isWhitespace b = false) : trimStart cs = cs := by
  cases cs with
  | nil => rfl
  | cons b cs => simp [trimStart, h b rfl]

theorem head?_trimStart (cs : List Char) : ∀ b ∈ (trimStart cs).head?, isWhitespace b = false := by
  intro b hb
  have hnot := List.head?_dropWhile_not isWhitespace cs
  rw [trimStart] at hb
  rw [hb] at hnot
  exact hnot

/-- Every text is whitespace and its trimmed rest. -/
theorem exists_eq_append_trimStart (cs : List Char) :
    ∃ blanks, cs = blanks ++ trimStart cs ∧ ∀ b ∈ blanks, isWhitespace b = true :=
  ⟨cs.takeWhile isWhitespace, List.takeWhile_append_dropWhile.symm,
    fun _ hb => List.mem_takeWhile_imp hb⟩

theorem trimStart_concat (hc : isWhitespace c = true) (cs : List Char) :
    trimStart (cs ++ [c]) = if trimStart cs = [] then [] else trimStart cs ++ [c] := by
  rw [trimStart_append]
  simp [trimStart, hc]

theorem trimEnd_concat (hc : isWhitespace c = true) (cs : List Char) :
    trimEnd (cs ++ [c]) = trimEnd cs :=
  List.rdropWhile_concat_pos isWhitespace cs c hc

theorem trimChars_concat (hc : isWhitespace c = true) (cs : List Char) :
    trimChars (cs ++ [c]) = trimChars cs := by
  rw [trimChars, trimStart_concat hc]
  by_cases h : trimStart cs = []
  · simp [trimChars, h]
  · rw [if_neg h, trimEnd_concat hc, trimChars]

theorem trimChars_append_of_blank (hblanks : ∀ b ∈ blanks, isWhitespace b = true) :
    trimChars (blanks ++ cs) = trimChars cs := by
  rw [trimChars, trimStart_append_of_blank hblanks, trimChars]

theorem trimChars_append_blanks (hblanks : ∀ b ∈ blanks, isWhitespace b = true) (cs : List Char) :
    trimChars (cs ++ blanks) = trimChars cs := by
  induction blanks generalizing cs with
  | nil => rw [List.append_nil]
  | cons b blanks ih =>
    rw [List.forall_mem_cons] at hblanks
    rw [List.append_cons, ih hblanks.2, trimChars_concat hblanks.1]

theorem trimEnd_isPrefix (cs : List Char) : trimEnd cs <+: cs :=
  List.rdropWhile_prefix isWhitespace cs

theorem trimEnd_append (cs ds : List Char) :
    trimEnd (cs ++ ds) = if trimEnd ds = [] then trimEnd cs else cs ++ trimEnd ds := by
  simp only [trimEnd, List.reverse_append, List.dropWhile_append, List.isEmpty_iff,
    List.reverse_eq_nil_iff]
  split <;> simp

/-- A start without whitespace stays when a text is trimmed. -/
theorem isPrefix_trimChars_iff {start : List Char} (hstart : ∀ b ∈ start, isWhitespace b = false) :
    start <+: trimChars cs ↔ start <+: trimStart cs := by
  constructor
  · exact fun h => h.trans (trimEnd_isPrefix _)
  · rintro ⟨rest, hrest⟩
    have hself : trimEnd start = start := by
      refine List.rdropWhile_eq_self_iff.mpr fun hne hblank => ?_
      rw [hstart _ (List.getLast_mem hne)] at hblank
      cases hblank
    rw [trimChars, ← hrest, trimEnd_append]
    split
    · exact hself.symm ▸ List.prefix_rfl
    · exact List.prefix_append start (trimEnd rest)

theorem trimChars_eq_nil_iff : trimChars cs = [] ↔ trimStart cs = [] := by
  constructor
  · intro h
    cases hstart : trimStart cs with
    | nil => rfl
    | cons b rest =>
      have hb : isWhitespace b = false := head?_trimStart cs b (by rw [hstart]; rfl)
      have hstarts : [b] <+: trimChars cs := by
        rw [isPrefix_trimChars_iff (by simpa using hb), hstart]
        exact ⟨rest, rfl⟩
      rw [h] at hstarts
      simp at hstarts
  · intro h
    rw [trimChars, h]
    rfl

theorem trimChars_isInfix (cs : List Char) : trimChars cs <:+: cs :=
  (trimEnd_isPrefix _).isInfix.trans (List.dropWhile_suffix isWhitespace).isInfix

theorem trimChars_trimChars (cs : List Char) : trimChars (trimChars cs) = trimChars cs := by
  have hstart : trimStart (trimChars cs) = trimChars cs := by
    apply trimStart_eq_self
    intro b hb
    obtain ⟨rest, hrest⟩ := trimEnd_isPrefix (trimStart cs)
    apply head?_trimStart cs b
    have hhead : (trimEnd (trimStart cs)).head? = some b := hb
    rw [← hrest]
    simp [hhead]
  rw [trimChars, hstart, trimChars]
  exact List.rdropWhile_idempotent isWhitespace _

/-! ## Starts and first words -/

theorem startsWith_iff {start : List Char} : startsWith start cs = true ↔ start <+: cs := by
  simp only [startsWith, Option.isSome_iff_exists, dropStart?_eq_some_iff]
  exact exists_congr fun _ => eq_comm

theorem dropStart?_concat {start : List Char} (hc : c ∉ start) (cs : List Char) :
    dropStart? start (cs ++ [c]) = (dropStart? start cs).map (· ++ [c]) := by
  induction start generalizing cs with
  | nil => rfl
  | cons p start ih =>
    rw [List.mem_cons, not_or] at hc
    cases cs with
    | nil => simp [dropStart?, Ne.symm hc.1]
    | cons b cs =>
      by_cases hb : p = b
      · simpa [dropStart?, hb] using ih hc.2 cs
      · simp [dropStart?, hb]

theorem findSome?_dropStart?_concat {starts : List (List Char)} (hc : ∀ start ∈ starts, c ∉ start)
    (cs : List Char) :
    (starts.findSome? fun start => dropStart? start (cs ++ [c])) =
      (starts.findSome? fun start => dropStart? start cs).map (· ++ [c]) := by
  induction starts with
  | nil => rfl
  | cons start starts ih =>
    rw [List.forall_mem_cons] at hc
    rw [List.findSome?_cons, List.findSome?_cons, dropStart?_concat hc.1]
    cases dropStart? start cs with
    | none => exact ih hc.2
    | some rest => rfl

theorem takeWord_concat (hc : isWhitespace c = true) (cs : List Char) :
    (cs ++ [c]).takeWhile (fun b => !isWhitespace b) = cs.takeWhile fun b => !isWhitespace b := by
  induction cs with
  | nil => simp [hc]
  | cons b cs ih => simp [List.takeWhile_cons, ih]

theorem dropWord_concat (hc : isWhitespace c = true) (cs : List Char) :
    (cs ++ [c]).dropWhile (fun b => !isWhitespace b) =
      cs.dropWhile (fun b => !isWhitespace b) ++ [c] := by
  induction cs with
  | nil => simp [hc]
  | cons b cs ih =>
    by_cases hb : isWhitespace b = true
    · simp [hb]
    · simpa [hb] using ih

end Availability.Text
