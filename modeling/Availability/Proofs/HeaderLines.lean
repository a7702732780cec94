import Availability.Header
import Availability.Proofs.Rows
import Availability.Proofs.Spelling
import Availability.Proofs.Trimming

/-!
# The first header line

A header is read from the first line of a text that has its name, and the kind of line endings makes
no difference.
-/
namespace Availability

namespace Text

variable {c x : Char}

/-! ## Case folding below the letters -/

theorem foldRuns_bounds : ∀ run ∈ foldRuns, 0x41 ≤ (run.1 : Int) + run.2.2.2 ∧
    ((run.2.1 : Int) + run.2.2.2 < 0xD800 ∨
      0xDFFF < (run.1 : Int) + run.2.2.2 ∧ (run.2.1 : Int) + run.2.2.2 < 0x110000) := by
  decide +kernel

/-- No run leads below the letters, or to what is no character. -/
theorem foldIn_bounds {runs : List (Nat × Nat × Nat × Int)} {n : Nat} (hruns : runs ⊆ foldRuns)
    (hvalid : n.isValidChar) (hn : 0x41 ≤ n) :
    0x41 ≤ foldIn n runs ∧ (foldIn n runs).isValidChar := by
  induction runs with
  | nil => exact ⟨hn, hvalid⟩
  | cons run runs ih =>
    obtain ⟨lo, hi, stride, distance⟩ := run
    have hrun := foldRuns_bounds (lo, hi, stride, distance) (hruns List.mem_cons_self)
    rw [foldIn]
    split
    case isTrue hin =>
      simp only [Bool.and_eq_true, decide_eq_true_eq] at hin
      dsimp only at hrun
      rw [Nat.isValidChar]
      omega
    case isFalse => exact ih fun run hmem => hruns (List.mem_cons_of_mem _ hmem)

theorem isAlpha_eq_false_of_lt (hx : x.toNat < 0x41) : x.isAlpha = false := by
  rw [← Bool.not_eq_true, isAlpha_iff]
  omega

/-- Only the character itself folds to a character below the letters. -/
theorem fold_eq_fold_iff (hx : x.toNat < 0x41) : fold c = fold x ↔ c = x := by
  have hplain := isAlpha_eq_false_of_lt hx
  have hfold : fold x = x := by
    rw [fold, if_pos (by omega)]
    exact (toLower_eq_iff hplain).mpr rfl
  rw [hfold, fold]
  split
  case isTrue => exact toLower_eq_iff hplain
  case isFalse hc =>
    have hchar : c.toNat.isValidChar := c.valid
    obtain ⟨hle, hvalid⟩ := foldIn_bounds (List.Subset.refl foldRuns) hchar (by omega)
    have htoNat : (Char.ofNat (foldIn c.toNat foldRuns)).toNat = foldIn c.toNat foldRuns := by
      rw [Char.ofNat, dif_pos hvalid]
      rfl
    constructor
    · intro h
      rw [h] at htoNat
      omega
    · rintro rfl
      omega

end Text

namespace Header

open Text

variable {name start cs line rest : List Char} {c : Char}

/-- Equality up to case folding. -/
def SameFolded (cs ds : List Char) : Prop :=
  cs.map fold = ds.map fold

/-- Blanks and an opening tag. -/
def IsTag (cs : List Char) : Prop :=
  ∃ blanks php, cs = blanks ++ php ∧ (∀ c ∈ blanks, c = ' ' ∨ c = '\t') ∧
    SameFolded php "<?php".toList

/-- Blanks and marks of comments and tags of documentation. -/
def Decorations (cs : List Char) : Prop :=
  ∀ c ∈ cs, c ∈ [' ', '\t', '/', '*', '#', '@']

/-- A name up to case and a colon, with the rest of the text after them. Decorations may stand
before the name, and before these a tag. -/
def HeaderLine (name line rest : List Char) : Prop :=
  ∃ tag decorations spelled, line = tag ++ (decorations ++ (spelled ++ ':' :: rest)) ∧
    (tag = [] ∨ IsTag tag) ∧ Decorations decorations ∧ SameFolded spelled name

/-- A name on one line that does not start like what may stand before it; no letter does. -/
structure IsName (name : List Char) : Prop where
  ne_nil : name ≠ []
  head : ∀ c ∈ name.head?, c ∉ [' ', '\t', '/', '*', '#', '@'] ∧ c ≠ '<'
  onLine : '\n' ∉ name

/-- The first line of several that has the form of a header, with the rest of it. -/
def FirstHeader (name : List Char) (lines : List (List Char)) (rest : List Char) : Prop :=
  ∃ above line below, lines = above ++ line :: below ∧ HeaderLine name line rest ∧
    ∀ other ∈ above, ∀ rest, ¬ HeaderLine name other rest

/-- The lines of a text. Each but the last is ended by a line feed, a carriage return, or a carriage
return and a line feed, which end one line together. -/
inductive HasLines : List Char → List (List Char) → Prop
  | last {line : List Char} (hline : '\n' ∉ line ∧ '\r' ∉ line) : HasLines line [line]
  | ended {line text : List Char} {lines : List (List Char)} (ending : List Char)
      (hline : '\n' ∉ line ∧ '\r' ∉ line) (hending : ending ∈ [['\n'], ['\r', '\n'], ['\r']])
      (hpair : ending = ['\r'] → text.head? ≠ some '\n') (htext : HasLines text lines) :
      HasLines (line ++ (ending ++ text)) (line :: lines)

/-- What stands before the first end of a comment or of the code, if there is one. -/
structure Cut (cs kept : List Char) : Prop where
  eq_append : cs = kept ∨
    ∃ after, cs = kept ++ '*' :: '/' :: after ∨ cs = kept ++ '?' :: '>' :: after
  inComment : ¬ ['*', '/'] <:+: kept
  inCode : ¬ ['?', '>'] <:+: kept

/-- Letters come after all characters that may stand before a name. -/
theorem IsName.of_letter (hne : name ≠ []) (hletter : ∀ c ∈ name.head?, 0x41 ≤ c.toNat)
    (hline : '\n' ∉ name) : IsName name := by
  refine ⟨hne, fun c hc => ?_, hline⟩
  have hlow : ∀ c ∈ [' ', '\t', '/', '*', '#', '@', '<'], c.toNat < 0x41 := by simp
  have hle := hletter c hc
  have hnot : c ∉ [' ', '\t', '/', '*', '#', '@', '<'] := fun hmem => by
    have hlt := hlow c hmem
    omega
  simpa [and_assoc] using hnot

/-! ## Names up to case -/

theorem dropFolded?_eq_some_iff :
    dropFolded? start cs = some rest ↔
      ∃ spelled, cs = spelled ++ rest ∧ SameFolded spelled start := by
  induction start generalizing cs with
  | nil => simp [dropFolded?, SameFolded]
  | cons p start ih =>
    cases cs with
    | nil =>
      constructor
      · intro h
        cases h
      · rintro ⟨spelled, hnil, hsame⟩
        obtain ⟨rfl, -⟩ := List.append_eq_nil_iff.mp hnil.symm
        cases hsame
    | cons c cs =>
      rw [dropFolded?]
      constructor
      · intro h
        split at h
        case isTrue hpc =>
          obtain ⟨spelled, rfl, hsame⟩ := ih.mp h
          have hfold : fold c = fold p := (beq_iff_eq.mp hpc).symm
          exact ⟨c :: spelled, rfl, by simp [SameFolded, hfold, show _ = _ from hsame]⟩
        case isFalse => cases h
      · rintro ⟨spelled, hcs, hsame⟩
        cases spelled with
        | nil => cases hsame
        | cons s spelled =>
          obtain ⟨rfl, rfl⟩ := List.cons.inj hcs
          obtain ⟨hfold, hrest⟩ := List.cons.inj hsame
          rw [if_pos (beq_iff_eq.mpr hfold.symm)]
          exact ih.mpr ⟨spelled, rfl, hrest⟩

theorem dropName?_eq_some_iff :
    dropFolded? (name ++ [':']) cs = some rest ↔
      ∃ spelled, cs = spelled ++ ':' :: rest ∧ SameFolded spelled name := by
  rw [dropFolded?_eq_some_iff]
  constructor
  · rintro ⟨spelled, rfl, hsame⟩
    rw [SameFolded, List.map_append] at hsame
    obtain ⟨spelled, colon, rfl, hspelled, hcolon⟩ := List.map_eq_append_iff.mp hsame
    obtain ⟨c, rfl, hc⟩ := List.map_eq_singleton_iff.mp hcolon
    rw [(fold_eq_fold_iff (by decide)).mp hc]
    exact ⟨spelled, by simp, hspelled⟩
  · rintro ⟨spelled, rfl, hsame⟩
    refine ⟨spelled ++ [':'], by simp, ?_⟩
    rw [SameFolded, List.map_append, List.map_append, show _ = _ from hsame]

theorem isDecoration_iff : isDecoration c = true ↔ c ∈ [' ', '\t', '/', '*', '#', '@'] := by
  rw [isDecoration, List.contains_iff_mem]

/-- However a name is spelled, it does not start like what may stand before it. -/
theorem IsName.exists_head (h : IsName name) {spelled : List Char}
    (hsame : SameFolded spelled name) :
    ∃ s rest, spelled = s :: rest ∧ isDecoration s = false ∧ s ≠ '<' := by
  obtain ⟨n, name, rfl⟩ := List.exists_cons_of_ne_nil h.ne_nil
  obtain ⟨s, rest, rfl, hfold, -⟩ := List.map_eq_cons_iff.mp hsame
  have hn := h.head n rfl
  refine ⟨s, rest, rfl, ?_, ?_⟩
  · rw [← Bool.not_eq_true, isDecoration_iff]
    intro hs
    have hlow : ∀ c ∈ [' ', '\t', '/', '*', '#', '@'], c.toNat < 0x41 := by simp
    exact hn.1 ((fold_eq_fold_iff (hlow s hs)).mp hfold.symm ▸ hs)
  · rintro rfl
    exact hn.2 ((fold_eq_fold_iff (by simp)).mp hfold.symm)

theorem afterName?_eq_some_iff (h : IsName name) :
    afterName? name cs = some rest ↔ ∃ decorations spelled,
      cs = decorations ++ (spelled ++ ':' :: rest) ∧ Decorations decorations ∧
      SameFolded spelled name := by
  induction cs with
  | nil =>
    rw [afterName?, dropName?_eq_some_iff]
    simp
  | cons c cs ih =>
    -- a decoration is passed over, and anything else starts the name
    by_cases hc : isDecoration c = true
    · have hnone : dropFolded? (name ++ [':']) (c :: cs) = none := by
        rw [Option.eq_none_iff_forall_ne_some]
        intro rest hrest
        obtain ⟨spelled, hcs, hsame⟩ := dropName?_eq_some_iff.mp hrest
        obtain ⟨s, _, rfl, hs, -⟩ := h.exists_head hsame
        obtain ⟨rfl, -⟩ := List.cons.inj hcs
        rw [hc] at hs
        cases hs
      rw [afterName?, if_pos hc, hnone, Option.or_none, ih]
      constructor
      · rintro ⟨decorations, spelled, rfl, hdecorations, hsame⟩
        refine ⟨c :: decorations, spelled, rfl, ?_, hsame⟩
        exact List.forall_mem_cons.mpr ⟨isDecoration_iff.mp hc, hdecorations⟩
      · rintro ⟨decorations, spelled, hcs, hdecorations, hsame⟩
        cases decorations with
        | nil =>
          obtain ⟨s, _, rfl, hs, -⟩ := h.exists_head hsame
          obtain ⟨rfl, -⟩ := List.cons.inj hcs
          rw [hc] at hs
          cases hs
        | cons d decorations =>
          obtain ⟨rfl, rfl⟩ := List.cons.inj hcs
          exact ⟨decorations, spelled, rfl, (List.forall_mem_cons.mp hdecorations).2, hsame⟩
    · rw [afterName?, if_neg hc, dropName?_eq_some_iff]
      constructor
      · rintro ⟨spelled, hcs, hsame⟩
        exact ⟨[], spelled, hcs, by simp [Decorations], hsame⟩
      · rintro ⟨decorations, spelled, hcs, hdecorations, hsame⟩
        cases decorations with
        | nil => exact ⟨spelled, hcs, hsame⟩
        | cons d decorations =>
          obtain ⟨rfl, -⟩ := List.cons.inj hcs
          exact absurd (isDecoration_iff.mpr (hdecorations c List.mem_cons_self)) hc

theorem afterTag?_eq_some_iff :
    afterTag? cs = some rest ↔ ∃ tag, cs = tag ++ rest ∧ IsTag tag := by
  rw [afterTag?, dropFolded?_eq_some_iff]
  constructor
  · rintro ⟨php, hphp, hsame⟩
    refine ⟨cs.takeWhile (fun c => c == ' ' || c == '\t') ++ php, ?_, _, php, rfl, ?_, hsame⟩
    · rw [List.append_assoc, ← hphp, List.takeWhile_append_dropWhile]
    · intro c hc
      simpa using List.mem_takeWhile_imp hc
  · rintro ⟨_, rfl, blanks, php, rfl, hblanks, hsame⟩
    refine ⟨php, ?_, hsame⟩
    obtain ⟨c, php, rfl, hfold, -⟩ := List.map_eq_cons_iff.mp hsame
    have hc : c = '<' := (fold_eq_fold_iff (by simp)).mp hfold
    rw [List.append_assoc, List.dropWhile_append_of_pos (by simpa using hblanks), hc]
    simp

/-- A tag does not start like decorations and a name. -/
theorem afterTag?_eq_none (h : IsName name) {decorations spelled : List Char}
    (hdecorations : Decorations decorations) (hsame : SameFolded spelled name) (rest : List Char) :
    afterTag? (decorations ++ (spelled ++ rest)) = none := by
  obtain ⟨s, spelled, rfl, hs, hne⟩ := h.exists_head hsame
  rw [Option.eq_none_iff_forall_ne_some]
  intro after hafter
  obtain ⟨_, hcs, blanks, php, rfl, hblanks, hphp⟩ := afterTag?_eq_some_iff.mp hafter
  obtain ⟨c, php, rfl, hfold, -⟩ := List.map_eq_cons_iff.mp hphp
  have hc : c = '<' := (fold_eq_fold_iff (by simp)).mp hfold
  have hpassed : ∀ b ∈ blanks, isDecoration b = true := by
    intro b hb
    rcases hblanks b hb with rfl | rfl <;> decide
  -- after the decorations there is the name in one reading and the tag in the other
  have hheads := congrArg (List.dropWhile isDecoration) hcs
  rw [List.dropWhile_append_of_pos fun b hb => isDecoration_iff.mpr (hdecorations b hb),
    List.append_assoc, List.dropWhile_append_of_pos hpassed, hc, List.cons_append,
    List.dropWhile_cons_of_neg (by simp [hs]), List.cons_append,
    List.dropWhile_cons_of_neg (by decide)] at hheads
  exact hne (List.cons.inj hheads).1

/-- A text is read as a header if and only if it has the form of one. -/
theorem headerLine_iff (h : IsName name) :
    HeaderLine name cs rest ↔
      ((afterTag? cs).bind (afterName? name)).or (afterName? name cs) = some rest := by
  rw [Option.or_eq_some_iff]
  constructor
  · rintro ⟨tag, decorations, spelled, rfl, htag, hdecorations, hsame⟩
    have hname : afterName? name (decorations ++ (spelled ++ ':' :: rest)) = some rest :=
      (afterName?_eq_some_iff h).mpr ⟨decorations, spelled, rfl, hdecorations, hsame⟩
    rcases htag with rfl | htag
    · refine .inr ⟨?_, hname⟩
      rw [List.nil_append, afterTag?_eq_none h hdecorations hsame, Option.bind_none]
    · refine .inl (Option.bind_eq_some_iff.mpr ⟨_, ?_, hname⟩)
      exact afterTag?_eq_some_iff.mpr ⟨tag, rfl, htag⟩
  · rintro (htagged | ⟨-, hname⟩)
    · obtain ⟨after, hafter, hname⟩ := Option.bind_eq_some_iff.mp htagged
      obtain ⟨tag, rfl, htag⟩ := afterTag?_eq_some_iff.mp hafter
      obtain ⟨decorations, spelled, rfl, hdecorations, hsame⟩ := (afterName?_eq_some_iff h).mp hname
      exact ⟨tag, decorations, spelled, rfl, .inr htag, hdecorations, hsame⟩
    · obtain ⟨decorations, spelled, rfl, hdecorations, hsame⟩ := (afterName?_eq_some_iff h).mp hname
      exact ⟨[], decorations, spelled, rfl, .inl rfl, hdecorations, hsame⟩

/-! ## Lines -/

theorem newline_notMem_of_sameFolded {cs ds : List Char} (hsame : SameFolded cs ds)
    (h : '\n' ∉ ds) : '\n' ∉ cs := by
  intro hmem
  have hfold : fold '\n' ∈ ds.map fold := by
    rw [← show cs.map fold = ds.map fold from hsame]
    exact List.mem_map_of_mem hmem
  obtain ⟨d, hd, heq⟩ := List.mem_map.mp hfold
  exact h ((fold_eq_fold_iff (by simp)).mp heq ▸ hd)

/-- What stands before the rest of a header is on one line. -/
theorem HeaderLine.exists_front (h : IsName name) (hline : HeaderLine name line rest) :
    ∃ front, line = front ++ rest ∧ '\n' ∉ front ∧
      ∀ rest', HeaderLine name (front ++ rest') rest' := by
  obtain ⟨tag, decorations, spelled, rfl, htag, hdecorations, hsame⟩ := hline
  refine ⟨tag ++ (decorations ++ (spelled ++ [':'])), by simp, ?_, fun rest' => ?_⟩
  · have hspelled := newline_notMem_of_sameFolded hsame h.onLine
    have hdecorated : '\n' ∉ decorations := fun hmem => absurd (hdecorations _ hmem) (by decide)
    have htagged : '\n' ∉ tag := by
      rcases htag with rfl | ⟨blanks, php, rfl, hblanks, hphp⟩
      · simp
      · have hnot := newline_notMem_of_sameFolded hphp (by decide)
        rw [List.mem_append, not_or]
        exact ⟨fun hmem => absurd (hblanks _ hmem) (by decide), hnot⟩
    simp [hspelled, hdecorated, htagged]
  · exact ⟨tag, decorations, spelled, by simp, htag, hdecorations, hsame⟩

theorem takeWhile_line {tail : List Char} (hline : '\n' ∉ line) (htail : LineEnds tail) :
    (line ++ tail).takeWhile (· != '\n') = line := by
  have hinside : ∀ c ∈ line, (c != '\n') = true := by
    intro c hc
    rw [bne_iff_ne]
    rintro rfl
    exact hline hc
  rw [List.takeWhile_append_of_pos hinside]
  rcases htail with rfl | ⟨more, rfl⟩
  · simp
  · simp

/-- A header is read from the line that a text starts with. -/
theorem atLine?_eq_some_iff (h : IsName name) {tail : List Char} (hline : '\n' ∉ line)
    (htail : LineEnds tail) :
    atLine? name (line ++ tail) = some rest ↔ HeaderLine name line rest := by
  rw [atLine?, Option.map_eq_some_iff]
  simp only [← headerLine_iff h]
  constructor
  · rintro ⟨after, hafter, rfl⟩
    obtain ⟨front, hsplit, hfront, hlines⟩ := hafter.exists_front h
    have htake := congrArg (List.takeWhile (· != '\n')) hsplit
    rw [takeWhile_line hline htail, List.takeWhile_append_of_pos] at htake
    · rw [htake]
      exact hlines _
    · intro c hc
      rw [bne_iff_ne]
      rintro rfl
      exact hfront hc
  · intro hrest
    obtain ⟨front, rfl, -, hlines⟩ := hrest.exists_front h
    rw [List.mem_append, not_or] at hline
    refine ⟨rest ++ tail, ?_, takeWhile_line hline.2 htail⟩
    rw [List.append_assoc]
    exact hlines _

theorem atLine?_line (h : IsName name) (hline : '\n' ∉ line) :
    atLine? name line = some rest ↔ HeaderLine name line rest := by
  have hself : atLine? name (line ++ []) = some rest ↔ HeaderLine name line rest :=
    atLine?_eq_some_iff h hline (.inl rfl)
  rwa [List.append_nil] at hself

theorem atLine?_nil (h : IsName name) : atLine? name [] = none := by
  rw [Option.eq_none_iff_forall_ne_some]
  intro rest hrest
  obtain ⟨tag, decorations, spelled, hnil, -⟩ := (atLine?_line h (by simp)).mp hrest
  simp at hnil

/-- Reading goes from line to line: a header is looked for where a line starts, and not again until
the next line does. -/
theorem firstLine?_eq_findSome? (h : IsName name) {row : List Char} {more : List (List Char)}
    (hrows : Text.rows cs = row :: more) :
    firstLine? name true cs = (row :: more).findSome? (atLine? name) ∧
      firstLine? name false cs = more.findSome? (atLine? name) := by
  have hempty := atLine?_nil h
  induction cs generalizing row more with
  | nil =>
    cases hrows
    simp [firstLine?, hempty]
  | cons c cs ih =>
    obtain ⟨tail, htail, hrow, hends⟩ := exists_eq_row_append hrows
    have hhere : atLine? name (c :: cs) = atLine? name row := by
      refine Option.ext fun rest => ?_
      rw [htail, atLine?_eq_some_iff h hrow hends, atLine?_line h hrow]
    obtain ⟨row', more', hrows'⟩ := exists_rows_eq_cons cs
    obtain ⟨htrue, hfalse⟩ := ih hrows'
    rw [firstLine?, firstLine?, if_pos rfl, hhere, if_neg Bool.false_ne_true, Option.none_or,
      List.findSome?_cons]
    by_cases hc : c = '\n'
    · subst hc
      rw [rows_cons_newline, hrows'] at hrows
      cases hrows
      simp [hempty, htrue]
    · rw [rows_cons_of_ne hc hrows'] at hrows
      cases hrows
      rw [beq_eq_false_iff_ne.mpr hc, hfalse]
      cases atLine? name (c :: row') <;> simp

/-! ## Values -/

theorem beforeEnd_isPrefix (cs : List Char) : beforeEnd cs <+: cs := by
  fun_induction beforeEnd cs with
  | case1 => simp
  | case2 rest => simp
  | case3 rest => simp
  | case4 c cs _ _ ih => exact List.cons_prefix_cons.mpr ⟨rfl, ih⟩

theorem cut_beforeEnd (cs : List Char) : Cut cs (beforeEnd cs) := by
  fun_induction beforeEnd cs with
  | case1 => exact ⟨.inl rfl, by simp, by simp⟩
  | case2 rest => exact ⟨.inr ⟨rest, .inl rfl⟩, by simp, by simp⟩
  | case3 rest => exact ⟨.inr ⟨rest, .inr rfl⟩, by simp, by simp⟩
  | case4 c cs hcomment hcode ih =>
    have hopen (a b : Char) (hnot : ∀ rest, c = a → cs = b :: rest → False)
        (hkept : ¬ [a, b] <:+: beforeEnd cs) : ¬ [a, b] <:+: c :: beforeEnd cs := by
      intro hpart
      rcases List.infix_cons_iff.mp hpart with hstarts | hpart
      · obtain ⟨rfl, hb⟩ := List.cons_prefix_cons.mp hstarts
        obtain ⟨rest, hrest⟩ := hb.trans (beforeEnd_isPrefix cs)
        exact hnot rest rfl hrest.symm
      · exact hkept hpart
    refine ⟨?_, hopen _ _ hcomment ih.inComment, hopen _ _ hcode ih.inCode⟩
    rcases ih.eq_append with heq | ⟨after, heq | heq⟩
    · exact .inl (congrArg (c :: ·) heq)
    · exact .inr ⟨after, .inl (congrArg (c :: ·) heq)⟩
    · exact .inr ⟨after, .inr (congrArg (c :: ·) heq)⟩

theorem Cut.beforeEnd_eq {kept : List Char} (h : Cut cs kept) : beforeEnd cs = kept := by
  induction kept generalizing cs with
  | nil =>
    rcases h.eq_append with rfl | ⟨after, rfl | rfl⟩ <;> rfl
  | cons c kept ih =>
    obtain ⟨rest, rfl, hcut⟩ : ∃ rest, cs = c :: rest ∧ Cut rest kept := by
      have hsub : kept <:+: c :: kept := (List.suffix_cons c kept).isInfix
      have hcomment : ¬ ['*', '/'] <:+: kept := fun hpart => h.inComment (hpart.trans hsub)
      have hcode : ¬ ['?', '>'] <:+: kept := fun hpart => h.inCode (hpart.trans hsub)
      rcases h.eq_append with rfl | ⟨after, rfl | rfl⟩
      · exact ⟨kept, rfl, .inl rfl, hcomment, hcode⟩
      · exact ⟨_, rfl, .inr ⟨after, .inl rfl⟩, hcomment, hcode⟩
      · exact ⟨_, rfl, .inr ⟨after, .inr rfl⟩, hcomment, hcode⟩
    -- neither end starts here: it would stand in what is kept
    have hnot (a b : Char) (hb : b ≠ '*' ∧ b ≠ '?') (hopen : ¬ [a, b] <:+: c :: kept)
        (more : List Char) (ha : c = a) (hrest : rest = b :: more) : False := by
      have heq := hcut.eq_append
      rw [hrest] at heq
      cases kept with
      | nil =>
        rcases heq with heq | ⟨after, heq | heq⟩
        · cases heq
        · exact hb.1 (List.cons.inj heq).1
        · exact hb.2 (List.cons.inj heq).1
      | cons d kept =>
        have hd : b = d := by
          rcases heq with heq | ⟨after, heq | heq⟩ <;> exact (List.cons.inj heq).1
        exact hopen ⟨[], kept, by rw [ha, hd]; rfl⟩
    rw [beforeEnd, ih hcut]
    · exact hnot '*' '/' (by decide) h.inComment
    · exact hnot '?' '>' (by decide) h.inCode

theorem findSome?_atLine?_eq_some_iff (h : IsName name) {lines : List (List Char)}
    (hlines : ∀ line ∈ lines, '\n' ∉ line) :
    lines.findSome? (atLine? name) = some rest ↔ FirstHeader name lines rest := by
  rw [List.findSome?_eq_some_iff]
  refine exists_congr fun above => exists_congr fun line => exists_congr fun below => ?_
  refine and_congr_right fun heq => ?_
  have hline : '\n' ∉ line := hlines line (by simp [heq])
  refine and_congr (atLine?_line h hline) (forall₂_congr fun other hother => ?_)
  have hother : '\n' ∉ other := hlines other (by simp [heq, hother])
  rw [Option.eq_none_iff_forall_ne_some]
  exact forall_congr' fun rest => not_congr (atLine?_line h hother)

/-- The value of a header is read from the first line that has it. -/
theorem value?_eq_some_iff {name content value : String} (h : IsName name.toList) :
    value? name content = some value ↔ ∃ rest kept,
      FirstHeader name.toList (Text.rows (normalizeEndings content.toList)) rest ∧ Cut rest kept ∧
      value = String.ofList (trimChars kept) ∧ value ≠ "" := by
  obtain ⟨row, more, hrows⟩ := exists_rows_eq_cons (normalizeEndings content.toList)
  have hlines : ∀ line ∈ row :: more, '\n' ∉ line := by
    rw [← hrows]
    exact fun line hline => not_mem_of_mem_split hline
  simp only [hrows, ← findSome?_atLine?_eq_some_iff h hlines]
  rw [value?, (firstLine?_eq_findSome? h hrows).1]
  cases (row :: more).findSome? (atLine? name.toList) with
  | none => simp
  | some text =>
    have hempty : (trimChars (beforeEnd text)).isEmpty = true ↔
        String.ofList (trimChars (beforeEnd text)) = "" := by
      rw [List.isEmpty_iff]
      simp
    constructor
    · intro hvalue
      dsimp only at hvalue
      split at hvalue
      case isTrue => cases hvalue
      case isFalse hne =>
        cases hvalue
        exact ⟨text, beforeEnd text, rfl, cut_beforeEnd text, rfl, fun heq => hne (hempty.mpr heq)⟩
    · rintro ⟨rest, kept, hrest, hcut, rfl, hne⟩
      cases hrest
      rw [← hcut.beforeEnd_eq] at hne ⊢
      dsimp only
      rw [if_neg fun hnil => hne (hempty.mp hnil)]

/-! ## Line endings -/

theorem normalizeEndings_append (hline : '\r' ∉ line) (cs : List Char) :
    normalizeEndings (line ++ cs) = line ++ normalizeEndings cs := by
  induction line with
  | nil => rfl
  | cons c line ih =>
    rw [List.mem_cons, not_or] at hline
    rw [List.cons_append, normalizeEndings, ih hline.2, List.cons_append]
    · exact fun _ hc _ => hline.1 hc.symm
    · exact fun hc => hline.1 hc.symm

theorem normalizeEndings_ending {ending text : List Char}
    (hending : ending ∈ [['\n'], ['\r', '\n'], ['\r']])
    (hpair : ending = ['\r'] → text.head? ≠ some '\n') :
    normalizeEndings (ending ++ text) = '\n' :: normalizeEndings text := by
  have hcases : ending = ['\n'] ∨ ending = ['\r', '\n'] ∨ ending = ['\r'] := by simpa using hending
  rcases hcases with rfl | rfl | rfl
  · simp [normalizeEndings]
  · rfl
  · rw [List.singleton_append, normalizeEndings]
    rintro rest rfl
    exact hpair rfl rfl

theorem rows_of_newline_notMem (hline : '\n' ∉ line) : Text.rows line = [line] :=
  split_eq_iff.mpr ⟨by simp, by simp, by simpa using hline⟩

theorem HasLines.eq_rows {lines : List (List Char)} (h : HasLines cs lines) :
    lines = Text.rows (normalizeEndings cs) := by
  induction h with
  | @last line hline =>
    have hself := normalizeEndings_append hline.2 []
    rw [List.append_nil, normalizeEndings, List.append_nil] at hself
    rw [hself, rows_of_newline_notMem hline.1]
  | ended ending hline hending hpair _ ih =>
    rw [normalizeEndings_append hline.2, normalizeEndings_ending hending hpair,
      rows_append_newline, rows_of_newline_notMem hline.1, ← ih, List.singleton_append]

/-- A character that ends no line belongs to the first one. -/
theorem HasLines.cons {lines : List (List Char)} (hc : c ≠ '\n' ∧ c ≠ '\r')
    (h : HasLines cs (line :: lines)) : HasLines (c :: cs) ((c :: line) :: lines) := by
  have hfront {line : List Char} (hline : '\n' ∉ line ∧ '\r' ∉ line) :
      '\n' ∉ c :: line ∧ '\r' ∉ c :: line := by
    simp [hline, Ne.symm hc.1, Ne.symm hc.2]
  cases h with
  | last hline => exact .last (hfront hline)
  | ended ending hline hending hpair htext =>
    exact .ended ending (hfront hline) hending hpair htext

theorem hasLines_rows (cs : List Char) : HasLines cs (Text.rows (normalizeEndings cs)) := by
  have hnil : '\n' ∉ ([] : List Char) ∧ '\r' ∉ ([] : List Char) := by simp
  fun_induction normalizeEndings cs with
  | case1 => exact .last hnil
  | case2 cs ih => exact .ended ['\r', '\n'] hnil (by simp) (by simp) ih
  | case3 cs hpair ih =>
    refine .ended ['\r'] hnil (by simp) (fun _ hhead => ?_) ih
    obtain ⟨rest, rfl⟩ := List.head?_eq_some_iff.mp hhead
    exact hpair rest rfl
  | case4 c cs _ hreturn ih =>
    by_cases hc : c = '\n'
    · subst hc
      exact .ended ['\n'] hnil (by simp) (by simp) ih
    · obtain ⟨row, rest, hrows⟩ := exists_rows_eq_cons (normalizeEndings cs)
      rw [rows_cons_of_ne hc hrows]
      rw [hrows] at ih
      exact ih.cons ⟨hc, hreturn⟩

theorem hasLines_iff {lines : List (List Char)} :
    HasLines cs lines ↔ lines = Text.rows (normalizeEndings cs) :=
  ⟨HasLines.eq_rows, fun h => h ▸ hasLines_rows cs⟩

/-- The lines of a text that are not empty. -/
def solidLines (cs : List Char) : List (List Char) :=
  (Text.rows (normalizeEndings cs)).filter (· ≠ [])

/-- With a line feed for every character that can end a line, a text has the same lines apart from
empty ones. -/
theorem rows_normalizeEndings (cs : List Char) :
    ∃ row rest rest', Text.rows (normalizeEndings cs) = row :: rest ∧
      Text.rows (cs.map fun c => if c = '\r' then '\n' else c) = row :: rest' ∧
      rest.filter (· ≠ []) = rest'.filter (· ≠ []) := by
  fun_induction normalizeEndings cs with
  | case1 => exact ⟨[], [], [], rfl, rfl, rfl⟩
  | case2 cs ih =>
    obtain ⟨row, rest, rest', hrows, hrows', hsame⟩ := ih
    refine ⟨[], row :: rest, [] :: row :: rest', ?_, ?_, ?_⟩
    · rw [rows_cons_newline, hrows]
    · simp [rows_cons_newline, hrows']
    · change (row :: rest).filter (· ≠ []) = (row :: rest').filter (· ≠ [])
      rw [List.filter_cons, List.filter_cons, hsame]
  | case3 cs _ ih =>
    obtain ⟨row, rest, rest', hrows, hrows', hsame⟩ := ih
    refine ⟨[], row :: rest, row :: rest', ?_, ?_, ?_⟩
    · rw [rows_cons_newline, hrows]
    · simp [rows_cons_newline, hrows']
    · rw [List.filter_cons, List.filter_cons, hsame]
  | case4 c cs _ hreturn ih =>
    obtain ⟨row, rest, rest', hrows, hrows', hsame⟩ := ih
    rw [List.map_cons, if_neg hreturn]
    by_cases hc : c = '\n'
    · refine ⟨[], row :: rest, row :: rest', ?_, ?_, ?_⟩
      · rw [hc, rows_cons_newline, hrows]
      · rw [hc, rows_cons_newline, hrows']
      · rw [List.filter_cons, List.filter_cons, hsame]
    · exact ⟨c :: row, rest, rest', rows_cons_of_ne hc hrows, rows_cons_of_ne hc hrows', hsame⟩

theorem solidLines_eq (cs : List Char) :
    solidLines cs = (Text.rows (cs.map fun c => if c = '\r' then '\n' else c)).filter (· ≠ []) := by
  obtain ⟨row, rest, rest', hrows, hrows', hsame⟩ := rows_normalizeEndings cs
  rw [solidLines, hrows, hrows', List.filter_cons, List.filter_cons, hsame]

/-- Wherever a line ends, in whichever way, the lines before and after are those of the text. -/
theorem solidLines_append {ending : List Char} (hending : ending ∈ [['\n'], ['\r', '\n'], ['\r']])
    (above below : List Char) :
    solidLines (above ++ ending ++ below) = solidLines above ++ solidLines below := by
  rw [solidLines_eq, solidLines_eq, solidLines_eq, List.append_assoc, List.map_append]
  have hcases : ending = ['\n'] ∨ ending = ['\r', '\n'] ∨ ending = ['\r'] := by simpa using hending
  rcases hcases with rfl | rfl | rfl
  · simp [rows_append_newline]
  · simp [rows_append_newline, rows_cons_newline]
  · simp [rows_append_newline]

theorem firstLine?_eq_solidLines (h : IsName name) (cs : List Char) :
    firstLine? name true (normalizeEndings cs) = (solidLines cs).findSome? (atLine? name) := by
  obtain ⟨row, more, hrows⟩ := exists_rows_eq_cons (normalizeEndings cs)
  rw [(firstLine?_eq_findSome? h hrows).1, solidLines, hrows]
  generalize row :: more = lines
  induction lines with
  | nil => rfl
  | cons line lines ih =>
    rw [List.findSome?_cons, List.filter_cons]
    by_cases hline : line = []
    · simpa [hline, atLine?_nil h] using ih
    · simp [hline, List.findSome?_cons, ih]

theorem value?_congr {name content content' : String} (h : IsName name.toList)
    (hsame : (solidLines content.toList).findSome? (atLine? name.toList) =
      (solidLines content'.toList).findSome? (atLine? name.toList)) :
    value? name content = value? name content' := by
  rw [value?, value?, firstLine?_eq_solidLines h, firstLine?_eq_solidLines h, hsame]

theorem solidLines_append_string {ending : String} (hending : ending ∈ ["\n", "\r\n", "\r"])
    (above below : String) : solidLines (above ++ ending ++ below).toList =
      solidLines above.toList ++ solidLines below.toList := by
  have hlist : ending.toList ∈ [['\n'], ['\r', '\n'], ['\r']] := by
    have hcases : ending = "\n" ∨ ending = "\r\n" ∨ ending = "\r" := by simpa using hending
    rcases hcases with rfl | rfl | rfl <;> decide
  rw [String.toList_append, String.toList_append, solidLines_append hlist]

/-- A text with the header makes up its mind: nothing after it matters. -/
theorem findSome?_solidLines_append (h : IsName name) {above below : List Char}
    (hheader : ∃ line ∈ Text.rows (normalizeEndings above), ∃ rest, HeaderLine name line rest) :
    (solidLines above ++ solidLines below).findSome? (atLine? name) =
      (solidLines above).findSome? (atLine? name) := by
  obtain ⟨line, hline, rest, hrest⟩ := hheader
  have hsolid : line ∈ solidLines above := by
    refine List.mem_filter.mpr ⟨hline, ?_⟩
    obtain ⟨tag, decorations, spelled, rfl, -⟩ := hrest
    simp
  have hread := (atLine?_line h (not_mem_of_mem_split hline)).mpr hrest
  have hsome : ((solidLines above).findSome? (atLine? name)).isSome = true :=
    List.findSome?_isSome_iff.mpr ⟨line, hsolid, by rw [hread]; rfl⟩
  obtain ⟨first, hfirst⟩ := Option.isSome_iff_exists.mp hsome
  rw [List.findSome?_append, hfirst, Option.some_or]

theorem FirstHeader.newline_notMem {lines : List (List Char)}
    (hlines : ∀ line ∈ lines, '\n' ∉ line) (hfirst : FirstHeader name lines rest) :
    '\n' ∉ rest := by
  obtain ⟨above, line, below, rfl, ⟨tag, decorations, spelled, rfl, -⟩, -⟩ := hfirst
  have hline := hlines _ (List.mem_append_right above List.mem_cons_self)
  simp only [List.mem_append, List.mem_cons, not_or] at hline
  exact hline.2.2.2.2

theorem Cut.isPrefix {kept : List Char} (h : Cut cs kept) : kept <+: cs := by
  rw [← h.beforeEnd_eq]
  exact beforeEnd_isPrefix cs

/-- The value of a header is what the first line with its name says before the end of a comment or
of the code; an empty one counts as missing. So it is trimmed, stands on one line and holds no such
end. Nothing after that line matters, and neither does the way in which lines end. -/
theorem value?_first_header {name : String} (h : IsName name.toList) :
    let lines (content : String) := Text.rows (normalizeEndings content.toList)
    (∀ content found, HasLines content.toList found ↔ found = lines content) ∧
    (∀ content value, value? name content = some value ↔ ∃ rest kept,
      FirstHeader name.toList (lines content) rest ∧ Cut rest kept ∧
      value = String.ofList (trimChars kept) ∧ value ≠ "") ∧
    (∀ content value, value? name content = some value →
      value ≠ "" ∧ Text.trim value = value ∧ '\n' ∉ value.toList ∧
      ¬ ['*', '/'] <:+: value.toList ∧ ¬ ['?', '>'] <:+: value.toList) ∧
    (∀ above below, ∀ ending ∈ ["\n", "\r\n", "\r"],
      (∃ line ∈ lines above, ∃ rest, HeaderLine name.toList line rest) →
      value? name (above ++ ending ++ below) = value? name above) ∧
    ∀ above below, ∀ ending ∈ ["\n", "\r\n", "\r"], ∀ ending' ∈ ["\n", "\r\n", "\r"],
      value? name (above ++ ending ++ below) = value? name (above ++ ending' ++ below) := by
  intro lines
  refine ⟨fun content found => hasLines_iff, fun content value => value?_eq_some_iff h, ?_, ?_, ?_⟩
  · intro content value hvalue
    obtain ⟨rest, kept, hfirst, hcut, rfl, hne⟩ := (value?_eq_some_iff h).mp hvalue
    have hrest : '\n' ∉ rest := hfirst.newline_notMem fun line hline => not_mem_of_mem_split hline
    have htrim := trimChars_isInfix kept
    rw [Text.trim, String.toList_ofList, trimChars_trimChars]
    refine ⟨hne, rfl, fun hmem => hrest (hcut.isPrefix.mem (htrim.mem hmem)), ?_, ?_⟩
    · exact fun hpart => hcut.inComment (hpart.trans htrim)
    · exact fun hpart => hcut.inCode (hpart.trans htrim)
  · intro above below ending hending hheader
    apply value?_congr h
    rw [solidLines_append_string hending, findSome?_solidLines_append h hheader]
  · intro above below ending hending ending' hending'
    apply value?_congr h
    rw [solidLines_append_string hending, solidLines_append_string hending']

theorem value?_first_header_requiresAtLeast :
    let above := "<?php /*\r\n * Plugin Name: A\r\n * @Requires At Least:\t6.2 */ ?>"
    let below := "# requires at least: 5"
    IsName requiresAtLeast.toList ∧ value? requiresAtLeast above = some "6.2" ∧
    (∃ line ∈ Text.rows (normalizeEndings above.toList), ∃ rest,
      HeaderLine requiresAtLeast.toList line rest) ∧
    value? requiresAtLeast (above ++ "\r" ++ below) = some "6.2" ∧
    value? requiresAtLeast (above ++ "\r\n" ++ below) = some "6.2" := by
  intro above below
  have hname : IsName requiresAtLeast.toList := by
    refine .of_letter (by decide) (fun c hc => ?_) (by decide)
    obtain rfl : 'R' = c := Option.some.inj hc
    simp
  obtain ⟨-, hiff, -, hlater, hendings⟩ := value?_first_header hname
  have habove : value? requiresAtLeast above = some "6.2" := by decide +kernel
  obtain ⟨rest, -, ⟨lines, line, _, hlines, hline, -⟩, -⟩ := (hiff above "6.2").mp habove
  have hheader : ∃ line ∈ Text.rows (normalizeEndings above.toList), ∃ rest,
      HeaderLine requiresAtLeast.toList line rest := ⟨line, by simp [hlines], rest, hline⟩
  have hreturn := (hlater above below "\r" (by decide) hheader).trans habove
  refine ⟨hname, habove, hheader, hreturn, ?_⟩
  rw [hendings above below "\r\n" (by decide) "\r" (by decide), hreturn]

end Header

end Availability
