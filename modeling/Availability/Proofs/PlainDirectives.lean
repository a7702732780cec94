import Availability.Proofs.Accounting
import Availability.Proofs.SuppressionRows

/-!
# Where plain directives apply

A plain directive covers the next line if nothing stands before its comment, and its own line
otherwise. What stands after a block comment plays no part, so a directive in front of the code of
its line does not cover that code.
-/
namespace Availability.Suppression

open Text

variable {cs row text before : List Char} {style : CommentStyle} {d : Directive} {fileWide : Bool}

/-- Text of whitespace only. -/
def Blank (cs : List Char) : Prop :=
  ∀ c ∈ cs, isWhitespace c = true

theorem all_isWhitespace_iff : cs.all isWhitespace = true ↔ Blank cs :=
  List.all_eq_true

instance (cs : List Char) : Decidable (Blank cs) :=
  decidable_of_iff _ all_isWhitespace_iff

theorem blank_append_iff {cs ds : List Char} : Blank (cs ++ ds) ↔ Blank cs ∧ Blank ds :=
  List.forall_mem_append

/-- A comment of a style, and what follows it on its row: a block comment ends with the first mark
that closes it, any other with the row. -/
def CommentStyle.Comment : CommentStyle → List Char → List Char → Prop
  | slashes, comment, after => ['/', '/'] <+: comment ∧ after = []
  | hash, comment, after => ['#'] <+: comment ∧ after = []
  | block, comment, _ =>
    ∃ inner, comment = '/' :: '*' :: (inner ++ ['*', '/']) ∧ ¬ ['*', '/'] <:+: inner

/-- The directive that counts on a row: the first one in comments of a style, if those of the styles
before say nothing. -/
structure Recognised (fileWide : Bool) (row : List Char) (style : CommentStyle)
    (before : List Char) (d : Directive) : Prop where
  found : style.find? row = some (before, d)
  first : ∃ earlier later, CommentStyle.all = earlier ++ style :: later ∧
    ∀ other ∈ earlier, ∀ found ∈ other.find? row, found.2.effect? fileWide found.1 = none

/-! ## Comments with directives -/

theorem isInfix_of_blockReason? {reason : List Char} (h : blockReason? cs = some reason) :
    ['*', '/'] <:+: cs := by
  have hstart : trimStart cs <:+: cs := (List.dropWhile_suffix isWhitespace).isInfix
  refine List.IsInfix.trans ?_ hstart
  rw [blockReason?] at h
  split at h
  case h_1 text htext =>
    obtain ⟨inner, hinner, -⟩ := Option.map_eq_some_iff.mp h
    obtain ⟨after, rfl, -⟩ := beforeClose?_eq_some_iff.mp hinner
    exact ⟨'-' :: inner, after, by simp [htext]⟩
  case h_2 after htext => exact ⟨[], after, htext.symm⟩
  case h_3 => cases h

theorem isInfix_of_blockRule? {found : List Char × List Char} (h : blockRule? cs = some found) :
    ['*', '/'] <:+: cs := by
  induction cs generalizing found with
  | nil => cases h
  | cons c cs ih =>
    refine List.IsInfix.trans ?_ (List.suffix_cons c cs).isInfix
    rw [blockRule?] at h
    split at h
    · cases h
    · split at h
      case h_1 hreason => exact isInfix_of_blockReason? hreason
      case h_2 =>
        obtain ⟨found, hfound, -⟩ := Option.map_eq_some_iff.mp h
        exact ih hfound

theorem isInfix_of_blockDirective? (h : blockDirective? cs = some d) : ['*', '/'] <:+: cs := by
  rw [blockDirective?] at h
  split at h
  case h_1 => cases h
  case h_2 rest hread =>
    obtain ⟨found, hfound, -⟩ := Option.map_eq_some_iff.mp h
    obtain ⟨blanks, gap, rfl, -⟩ := requests_of_request? hread
    refine (isInfix_of_blockRule? hfound).trans (List.IsSuffix.isInfix ?_)
    simp only [← List.append_assoc]
    exact List.suffix_append _ _

theorem exists_beforeClose? (h : ['*', '/'] <:+: cs) : ∃ inner, beforeClose? cs = some inner := by
  fun_induction beforeClose? cs with
  | case1 => simp at h
  | case2 rest => exact ⟨[], rfl⟩
  | case3 b cs hnot ih =>
    rcases List.infix_cons_iff.mp h with ⟨rest, hrest⟩ | hcs
    · obtain ⟨rfl, rfl⟩ := List.cons.inj hrest
      exact (hnot rest rfl rfl).elim
    · obtain ⟨inner, hinner⟩ := ih hcs
      exact ⟨b :: inner, by rw [hinner]; rfl⟩

/-- Every directive stands in a comment of its style. -/
theorem exists_comment (h : style.directive? text = some d) :
    ∃ comment after, text = comment ++ after ∧ style.Comment comment after := by
  obtain ⟨mark, cs, hmark, rfl, hbody⟩ := CommentStyle.exists_mark_of_directive? h
  cases style with
  | slashes =>
    obtain rfl := List.mem_singleton.mp hmark
    exact ⟨_, [], (List.append_nil _).symm, ⟨cs, rfl⟩, rfl⟩
  | hash =>
    obtain rfl := List.mem_singleton.mp hmark
    exact ⟨_, [], (List.append_nil _).symm, ⟨cs, rfl⟩, rfl⟩
  | block =>
    have hclosed : ['*', '/'] <:+: cs := isInfix_of_blockDirective? hbody
    obtain ⟨inside, hinside, hpart⟩ :
        ∃ inside, mark ++ cs = '/' :: '*' :: inside ∧ ['*', '/'] <:+: inside := by
      rcases List.mem_cons.mp hmark with rfl | hmark
      · exact ⟨'*' :: cs, rfl, hclosed.trans (List.suffix_cons '*' cs).isInfix⟩
      · obtain rfl := List.mem_singleton.mp hmark
        exact ⟨cs, rfl, hclosed⟩
    obtain ⟨inner, hinner⟩ := exists_beforeClose? hpart
    obtain ⟨after, rfl, hopen⟩ := beforeClose?_eq_some_iff.mp hinner
    exact ⟨'/' :: '*' :: (inner ++ ['*', '/']), after, by simp [hinside], inner, rfl, hopen⟩

/-! ## The directive that counts -/

theorem effect?_of_recognised (h : Recognised fileWide row style before d)
    (hd : d.request = .ignore) :
    effect? fileWide row = some
      ⟨if before.all isWhitespace then .nextLine else .line, String.ofList d.rule,
        String.ofList d.reason⟩ := by
  obtain ⟨earlier, later, hall, hnone⟩ := h.first
  rw [effect?, List.findSome?_eq_some_iff]
  refine ⟨earlier, style, later, hall, ?_, fun other hother => ?_⟩
  · rw [h.found, Option.bind_some, Directive.effect?, hd]
    rfl
  · cases hfound : other.find? row with
    | none => rfl
    | some found => exact hnone other hother found hfound

/-- A plain directive covers the next line if nothing stands before its comment, and otherwise its
own line. So it covers its own line unless it is alone there, except where only code after the
comment makes the difference. -/
theorem plain_directive_covers (file source : String) {i : Nat}
    (hrow : (Text.rows source.toList)[i]? = some row)
    (h : Recognised (decide (FileWide (Text.rows source.toList) (i + 1))) row style before d)
    (hd : d.request = .ignore) :
    ∃ s ∈ ofSource file source, atRow? file (Text.rows source.toList) (i + 1) = some s ∧
      s.line = i + 1 ∧ s.rule = String.ofList d.rule ∧ s.reason = String.ofList d.reason ∧
      (s.reach = .nextLine ↔ Blank before) ∧ (s.reach = .line ↔ ¬ Blank before) ∧
      (∃ comment after, row = before ++ comment ++ after ∧ style.Comment comment after ∧
        ((s.reach = .nextLine ↔ Blank (before ++ after)) ↔ (Blank before → Blank after))) ∧
      ∀ x : Diagnostic, x.file = file → s.coversIssue x.issue = true →
        (s.covers x = true ↔ x.line = if Blank before then i + 2 else i + 1) := by
  have hat : atRow? file (Text.rows source.toList) (i + 1) = some
      ⟨String.ofList d.rule, String.ofList d.reason, file, i + 1,
        if Blank before then .nextLine else .line⟩ := by
    rw [atRow?, hrow, Option.bind_some, effect?_of_recognised h hd, Option.map_some]
    simp only [all_isWhitespace_iff]
    by_cases hb : Blank before <;> simp [Effect.onRow, hb]
  obtain ⟨tail, htail, hdirective⟩ := CommentStyle.find?_sound h.found
  obtain ⟨comment, after, hcomment, hstyle⟩ := exists_comment hdirective
  refine ⟨_, ?_, hat, rfl, rfl, rfl, ?_, ?_, ⟨comment, after, ?_, hstyle, ?_⟩, ?_⟩
  · rw [ofSource_eq_filterMap, List.mem_filterMap]
    refine ⟨i + 1, ?_, hat⟩
    have hi := (List.getElem?_eq_some_iff.mp hrow).1
    rw [List.mem_range'_1]
    omega
  · by_cases hb : Blank before <;> simp [hb]
  · by_cases hb : Blank before <;> simp [hb]
  · rw [htail, hcomment, List.append_assoc]
  · by_cases hb : Blank before <;> simp [hb, blank_append_iff]
  · intro x hfile hissue
    rw [covers, hissue, hfile]
    by_cases hb : Blank before <;> simp [coversLine, hb]

theorem plain_directive_covers_afterCode :
    let source := "<?php\nf(); /** wpcompat:ignore * */ g();\n"
    let row := "f(); /** wpcompat:ignore * */ g();".toList
    (Text.rows source.toList)[1]? = some row ∧
    Recognised true row .block "f(); ".toList ⟨.ignore, ['*'], []⟩ ∧
    ∃ s ∈ ofSource "a.php" source, s.reach = .line ∧
      ∀ x : Diagnostic, x.file = "a.php" → (s.covers x = true ↔ x.line = 2) := by
  intro source row
  have hrow : (Text.rows source.toList)[1]? = some row := by decide
  have hwide : decide (FileWide (Text.rows source.toList) (1 + 1)) = true := by decide
  have hrecognised : Recognised true row .block "f(); ".toList ⟨.ignore, ['*'], []⟩ :=
    ⟨by decide, [.slashes, .hash], [], by decide, by decide⟩
  obtain ⟨s, hs, -, -, hrule, -, -, hline, -, hcovers⟩ :=
    plain_directive_covers "a.php" source hrow (hwide ▸ hrecognised) rfl
  refine ⟨hrow, hrecognised, s, hs, hline.mpr (by decide), fun x hfile => ?_⟩
  rw [hcovers x hfile (coversIssue_iff.mpr (.inl hrule)), if_neg (by decide)]

/-- In front of the code of its line a directive is not alone there, and yet it covers the next line
and not its own. -/
theorem not_covered_codeAfterComment :
    let source := "<?php\n/* wpcompat:ignore * */ f();\ng();\n"
    let comment := "/* wpcompat:ignore * */".toList
    let after := " f();".toList
    (Text.rows source.toList)[1]? = some (comment ++ after) ∧
    Recognised true (comment ++ after) .block [] ⟨.ignore, ['*'], []⟩ ∧
    CommentStyle.block.Comment comment after ∧ ¬ Blank after ∧
    ofSource "a.php" source = [⟨"*", "", "a.php", 2, .nextLine⟩] ∧
    ∀ s ∈ ofSource "a.php" source, ∀ x : Diagnostic, x.line = 2 → s.covers x = false := by
  intro source comment after
  have hsource : ofSource "a.php" source = [⟨"*", "", "a.php", 2, .nextLine⟩] := by decide
  refine ⟨by decide, ⟨by decide, [.slashes, .hash], [], by decide, by decide⟩,
    ⟨" wpcompat:ignore * ".toList, by decide, by decide⟩, by decide, hsource, ?_⟩
  intro s hs x hline
  rw [hsource, List.mem_singleton] at hs
  simp [hs, covers, coversLine, hline]

end Availability.Suppression
