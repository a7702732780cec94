import Availability.Proofs.SuppressionRows

/-!
# The three styles of comments mean the same

A directive that can be written in a comment of each style is read back from each of them, after any
text without the first characters of marks. The style makes no difference to the suppressions of the
source, nor to what belongs to its header.
-/
namespace Availability.Suppression

open Text

/-- A directive that can be written in a comment of each style. -/
structure Phrase where
  request : Request
  rule : List Char
  reason : Option (List Char)
  rule_ne_nil : rule ≠ []
  isWord : ∀ c ∈ rule, isWhitespace c = false
  noDash : '-' ∉ rule
  rule_open : ¬ ['*', '/'] <:+: rule
  rule_unmarked : ¬ "wpcompat:".toList <:+: rule
  reason_onLine : ∀ s ∈ reason, '\n' ∉ s
  reason_open : ∀ s ∈ reason, ¬ ['*', '/'] <:+: s
  reason_unmarked : ∀ s ∈ reason, ¬ "wpcompat:".toList <:+: s

/-- A comment of a style around a text. -/
def CommentStyle.around (text : List Char) : CommentStyle → List Char
  | slashes => '/' :: '/' :: ' ' :: text
  | hash => '#' :: ' ' :: text
  | block => '/' :: '*' :: ' ' :: (text ++ [' ', '*', '/'])

/-- A rule in a block comment ends where a reason or the end of the comment follows. -/
theorem blockRule?_append {rule tail reason : List Char} (hne : rule ≠ [])
    (hword : ∀ c ∈ rule, isWhitespace c = false) (hdash : '-' ∉ rule)
    (hopen : ¬ ['*', '/'] <:+: rule) (hslash : tail.head? ≠ some '/')
    (htail : blockReason? tail = some reason) :
    blockRule? (rule ++ tail) = some (rule, reason) := by
  induction rule with
  | nil => contradiction
  | cons c rule ih =>
    rw [List.forall_mem_cons] at hword
    rw [List.mem_cons, not_or] at hdash
    rw [List.cons_append, blockRule?, if_neg (by simp [hword.1])]
    cases rule with
    | nil => simp [htail]
    | cons d rule =>
      have hd := hword.2 d List.mem_cons_self
      have hnext : d = '*' → (rule ++ tail).head? ≠ some '/' := by
        rintro rfl
        cases rule with
        | nil => exact hslash
        | cons e rule =>
          intro he
          cases he
          exact hopen ⟨[c], rule, rfl⟩
      have hreason : blockReason? (d :: rule ++ tail) = none := by
        rw [blockReason?, trimStart_eq_self (by simpa using hd)]
        split
        case h_1 heq => exact absurd List.mem_cons_self ((List.cons.inj heq).1 ▸ hdash.2)
        case h_2 hclose =>
          obtain ⟨hstar, hrest⟩ := List.cons.inj hclose
          rw [List.append_eq] at hrest
          rw [hrest] at hnext
          exact absurd rfl (hnext hstar)
        case h_3 => rfl
      rw [hreason, ih (List.cons_ne_nil d rule) hword.2 hdash.2
        fun hpart => hopen (hpart.trans (List.suffix_cons c _).isInfix)]
      rfl

namespace Phrase

variable (p : Phrase)

/-- The reason after its dash. -/
def tail : List Char :=
  p.reason.elim [] (' ' :: '-' :: ' ' :: ·)

/-- How a directive is written, in a comment of whatever style. -/
def text : List Char :=
  marker ++ (p.request.ending ++ (' ' :: (p.rule ++ p.tail)))

/-- The directive that is read from the text. -/
def directive : Directive :=
  ⟨p.request, p.rule, p.reason.elim [] trimChars⟩

/-- The suppression of the directive on a row of a file, after some text of the row. -/
def suppression? (file : String) (number : Nat) (fileWide : Bool) (before : List Char) :
    Option Suppression :=
  (p.request.reach? fileWide (before.all isWhitespace)).map fun reach =>
    { rule := String.ofList p.rule
      reason := String.ofList (p.reason.elim [] trimChars)
      file
      line := if reach = .file then 0 else number
      reach }

theorem requests_text (after : List Char) :
    Requests (' ' :: (p.text ++ after)) p.request (p.rule ++ (p.tail ++ after)) := by
  have hblank : isWhitespace ' ' = true := by decide
  refine ⟨[' '], [' '], by simp [text], by simpa using hblank, by simpa using hblank, by simp, ?_⟩
  rw [List.head?_append_of_ne_nil _ p.rule_ne_nil]
  exact fun b hb => p.isWord b (List.mem_of_mem_head? hb)

theorem lineDirective?_text : lineDirective? (' ' :: p.text) = some p.directive := by
  have hread := request?_of_requests (p.requests_text [])
  rw [List.append_nil, List.append_nil] at hread
  have hword : ∀ b ∈ p.rule, (!isWhitespace b) = true := by
    intro b hb
    rw [p.isWord b hb]
    rfl
  have hblank : isWhitespace ' ' = true := by decide
  have hdash : isWhitespace '-' = false := by decide
  obtain ⟨r, rule, hrule⟩ := List.exists_cons_of_ne_nil p.rule_ne_nil
  rw [lineDirective?, hread]
  dsimp only
  rw [List.takeWhile_append_of_pos hword, List.dropWhile_append_of_pos hword]
  cases hreason : p.reason with
  | none => simp [tail, directive, trimStart, hreason, hrule]
  | some s =>
    have htrim : trimChars ([' '] ++ s) = trimChars s :=
      trimChars_append_of_blank (by simp [hblank])
    rw [List.singleton_append] at htrim
    simp [tail, directive, trimStart, hreason, hrule, hblank, hdash, htrim]

theorem blockReason?_tail : blockReason? (p.tail ++ [' ', '*', '/']) =
    some (p.reason.elim [] trimChars) := by
  cases hreason : p.reason with
  | none =>
    rw [tail, hreason]
    rfl
  | some s =>
    have hblank : isWhitespace ' ' = true := by decide
    have hclosed : beforeClose? (' ' :: (s ++ [' ', '*', '/'])) = some (' ' :: (s ++ [' '])) := by
      refine beforeClose?_eq_some_iff.mpr ⟨[], by simp, fun hpart => ?_⟩
      rcases isInfix_of_isInfix_append_cons (by decide) [] hpart with h | h
      · simp at h
      · rcases isInfix_of_isInfix_append_cons (by decide) s h with h | h
        · exact p.reason_open s hreason h
        · simp at h
    have htrim : trimChars (' ' :: (s ++ [' '])) = trimChars s := by
      rw [← List.cons_append, trimChars_concat hblank, ← List.singleton_append]
      exact trimChars_append_of_blank (by simp [hblank])
    have hstart : trimStart (p.tail ++ [' ', '*', '/']) = '-' :: ' ' :: (s ++ [' ', '*', '/']) := by
      simp [tail, hreason, trimStart, hblank, show isWhitespace '-' = false by decide]
    rw [blockReason?, hstart]
    simp [hclosed, htrim]

theorem blockDirective?_text :
    blockDirective? (' ' :: (p.text ++ [' ', '*', '/'])) = some p.directive := by
  have hrule := blockRule?_append p.rule_ne_nil p.isWord p.noDash p.rule_open ?_
    p.blockReason?_tail
  · rw [blockDirective?, request?_of_requests (p.requests_text _)]
    simp [hrule, directive]
  · cases hreason : p.reason <;> simp [tail, hreason]

/-- The words of a request do not come again in the rule or the reason. -/
theorem not_marker_isInfix : ¬ marker <:+: p.rule ++ p.tail := by
  have hmarked : "wpcompat:".toList <:+: marker := ⟨[], "ignore".toList, rfl⟩
  have hspace : ' ' ∉ marker := by decide
  have hrule : ¬ marker <:+: p.rule := fun h => p.rule_unmarked (hmarked.trans h)
  intro hpart
  cases hreason : p.reason with
  | none =>
    rw [tail, hreason, Option.elim_none, List.append_nil] at hpart
    exact hrule hpart
  | some s =>
    rw [tail, hreason, Option.elim_some] at hpart
    have hafter := (isInfix_of_isInfix_append_cons hspace p.rule hpart).resolve_left hrule
    rcases isInfix_of_isInfix_append_cons hspace ['-'] hafter with h | h
    · exact absurd h (by decide)
    · exact p.reason_unmarked s hreason (hmarked.trans h)

theorem find?_text_eq_none (style : CommentStyle) {after : List Char}
    (hafter : after = [] ∨ after = [' ', '*', '/']) :
    style.find? (' ' :: (p.text ++ after)) = none := by
  have hspace : ' ' ∉ marker := by decide
  have hplain (request : Request) : '/' ∉ ' ' :: (marker ++ (request.ending ++ [' '])) ∧
      '#' ∉ ' ' :: (marker ++ (request.ending ++ [' '])) := by
    cases request <;> decide
  have hunmarked : ¬ marker <:+: p.rule ++ p.tail ++ after := by
    rcases hafter with rfl | rfl
    · rw [List.append_nil]
      exact p.not_marker_isInfix
    · intro hpart
      rcases isInfix_of_isInfix_append_cons hspace _ hpart with h | h
      · exact p.not_marker_isInfix h
      · exact absurd h (by decide)
  have htext : ' ' :: (p.text ++ after) =
      ' ' :: (marker ++ (p.request.ending ++ [' '])) ++ (p.rule ++ p.tail ++ after) := by
    simp [text]
  rw [htext, style.find?_append_of_plain (hplain p.request).1 (hplain p.request).2,
    style.find?_eq_none_of_not_isInfix hunmarked, Option.map_none]

theorem find?_around (style : CommentStyle) :
    style.find? (style.around p.text) = some ([], p.directive) := by
  have hhere : style.directive? (style.around p.text) = some p.directive := by
    cases style with
    | slashes => exact p.lineDirective?_text
    | hash => exact p.lineDirective?_text
    | block => exact p.blockDirective?_text
  cases style <;> rw [CommentStyle.around] at hhere ⊢ <;> rw [CommentStyle.find?, hhere]

theorem find?_around_of_ne {style other : CommentStyle} (hne : other ≠ style) :
    other.find? (style.around p.text) = none := by
  have hline := p.find?_text_eq_none other (.inl rfl)
  have hblock := p.find?_text_eq_none other (.inr rfl)
  rw [List.append_nil] at hline
  cases style with
  | slashes =>
    refine CommentStyle.find?_cons_eq_none ?_ (CommentStyle.find?_cons_eq_none ?_ hline)
    · cases other <;> first | contradiction | rfl
    · cases other <;> rfl
  | hash =>
    refine CommentStyle.find?_cons_eq_none ?_ hline
    cases other <;> first | contradiction | rfl
  | block =>
    refine CommentStyle.find?_cons_eq_none ?_ (CommentStyle.find?_cons_eq_none ?_ hblock)
    · cases other <;> first | contradiction | rfl
    · cases other <;> rfl

theorem newline_notMem_around (style : CommentStyle) : '\n' ∉ style.around p.text := by
  have hrequest (request : Request) : '\n' ∉ marker ++ (request.ending ++ [' ']) := by
    cases request <;> decide
  have hrule : '\n' ∉ p.rule := fun h => absurd (p.isWord '\n' h) (by decide)
  have htail : '\n' ∉ p.tail := by
    cases hreason : p.reason with
    | none => simp [tail, hreason]
    | some s => simp [tail, hreason, p.reason_onLine s hreason]
  have htext : '\n' ∉ p.text := by
    have h := hrequest p.request
    simp only [text, List.mem_append, List.mem_cons, not_or] at h ⊢
    exact ⟨h.1, h.2.1, by decide, hrule, htail⟩
  cases style <;> simp [CommentStyle.around, htext]

/-- The directive is read from a comment of each style, whatever stands before it. -/
theorem effect?_around (style : CommentStyle) (fileWide : Bool) {before ending : List Char}
    (hslash : '/' ∉ before) (hhash : '#' ∉ before)
    (hending : ∀ c ∈ ending, isWhitespace c = true) :
    effect? fileWide (before ++ style.around p.text ++ ending) =
      p.directive.effect? fileWide before := by
  have hfind (other : CommentStyle) : other.find? (before ++ style.around p.text ++ ending) =
      if other = style then some (before, p.directive) else none := by
    rw [other.find?_append_of_blank hending, other.find?_append_of_plain hslash hhash]
    split
    case isTrue h =>
      subst h
      simp [p.find?_around]
    case isFalse h => simp [p.find?_around_of_ne h]
  have hall : effect? fileWide (before ++ style.around p.text ++ ending) =
      CommentStyle.all.findSome? fun other =>
        if other = style then p.directive.effect? fileWide before else none := by
    rw [effect?]
    congr 1
    funext other
    rw [hfind other]
    split <;> rfl
  rw [hall]
  cases p.directive.effect? fileWide before <;> cases style <;> rfl

end Phrase

/-- After text without the first characters of marks, a comment of any style leaves a row as much in
the header as that text is. -/
theorem headerRow_append_around (style : CommentStyle) {before : List Char} (text : List Char)
    (hslash : '/' ∉ before) (hhash : '#' ∉ before) :
    HeaderRow (before ++ style.around text) ↔ HeaderRow before := by
  obtain ⟨x, rest, hx, hrest⟩ :
      ∃ x rest, (x = '/' ∨ x = '#') ∧ style.around text = x :: rest := by
    cases style <;> exact ⟨_, _, by decide, rfl⟩
  have hcomment : ∃ start ∈ ["<?php", "//", "#", "/*", "*"], start.toList <+: x :: rest := by
    rw [← hrest]
    cases style with
    | slashes => exact ⟨"//", by decide, _, rfl⟩
    | hash => exact ⟨"#", by decide, _, rfl⟩
    | block => exact ⟨"/*", by decide, _, rfl⟩
  rw [headerRow_iff, headerRow_iff, trimStart_append, hrest]
  cases hstart : trimStart before with
  | nil =>
    have hplain : isWhitespace x = false := by rcases hx with rfl | rfl <;> decide
    have hself : trimStart (x :: rest) = x :: rest := trimStart_eq_self (by simpa using hplain)
    simp only [if_true, hself, true_or, iff_true]
    exact .inr hcomment
  | cons a before' =>
    have ha : a ∈ before := by
      apply (List.dropWhile_suffix isWhitespace).mem
      rw [← trimStart, hstart]
      exact List.mem_cons_self
    rw [if_neg (List.cons_ne_nil a before')]
    refine or_congr (by simp) (exists_congr fun start => and_congr_right fun hmem => ?_)
    refine ⟨fun h => ?_, fun h => h.trans (List.prefix_append _ _)⟩
    -- what starts with such a character does not fit, and nothing else reaches into the comment
    have hmarks : ∀ start ∈ ["<?php", "//", "#", "/*", "*"],
        '/' ∈ start.toList ∨ '#' ∈ start.toList →
          start.toList.head? = some '/' ∨ start.toList.head? = some '#' := by
      decide
    by_cases hinside : x ∈ start.toList
    · have hhead : start.toList.head? = some a := by
        obtain ⟨after, hafter⟩ := h
        rw [← List.head?_append_of_ne_nil start.toList (List.ne_nil_of_mem hinside), hafter]
        rfl
      have hmark := hmarks start hmem (by rcases hx with rfl | rfl <;> simp [hinside])
      rw [hhead] at hmark
      rcases hmark with hmark | hmark
      · exact absurd (Option.some.inj hmark ▸ ha) hslash
      · exact absurd (Option.some.inj hmark ▸ ha) hhash
    · exact isPrefix_of_isPrefix_append_cons hinside h

/-- After any text of a row without the first characters of marks, a directive means the same in a
comment of each style: it gives the one suppression that its words say, or none. The source has it
between those of the rows above and below, which are the same in all. -/
theorem ofSource_comment_styles (file : String) (p : Phrase) {above below : List (List Char)}
    {before ending : List Char} (habove : ∀ row ∈ above, '\n' ∉ row)
    (hbelow : ∀ row ∈ below, '\n' ∉ row) (hbefore : '\n' ∉ before) (hslash : '/' ∉ before)
    (hhash : '#' ∉ before) (hblank : ∀ c ∈ ending, isWhitespace c = true)
    (hending : '\n' ∉ ending) :
    let number := above.length + 1
    let rows (style : CommentStyle) := above ++ (before ++ style.around p.text ++ ending) :: below
    let source (style : CommentStyle) := String.ofList (['\n'].intercalate (rows style))
    let given := p.suppression? file number (decide (FileWide (above ++ [before]) number)) before
    (∀ style, Text.rows (source style).toList = rows style ∧
      atRow? file (rows style) number = given) ∧
    (∃ earlier later, ∀ style,
      (List.range' 1 above.length).filterMap (atRow? file (rows style)) = earlier ∧
      (List.range' (number + 1) below.length).filterMap (atRow? file (rows style)) = later ∧
      ofSource file (source style) = earlier ++ given.toList ++ later) ∧
    ∀ style style', ofSource file (source style) = ofSource file (source style') := by
  intro number rows source given
  have hheader (style : CommentStyle) :
      HeaderRow (before ++ style.around p.text ++ ending) ↔ HeaderRow before := by
    rw [HeaderRow, trimChars_append_blanks hblank]
    exact headerRow_append_around style p.text hslash hhash
  have hrows (style : CommentStyle) : Text.rows (source style).toList = rows style := by
    rw [String.toList_ofList]
    refine split_intercalate (by simp [rows]) fun row hrow => ?_
    rcases List.mem_append.mp hrow with hrow | hrow
    · exact habove row hrow
    · rcases List.mem_cons.mp hrow with rfl | hrow
      · simp only [List.mem_append, not_or]
        exact ⟨⟨hbefore, p.newline_notMem_around style⟩, hending⟩
      · exact hbelow row hrow
  have hat (style : CommentStyle) : atRow? file (rows style) number = given := by
    have hrow : (rows style)[above.length]? = some (before ++ style.around p.text ++ ending) := by
      simp [rows]
    have hwide : FileWide (rows style) number ↔ FileWide (above ++ [before]) number := by
      rw [fileWide_append_cons_iff, fileWide_append_cons_iff, hheader style]
    rw [atRow?, hrow, Option.bind_some, p.effect?_around style _ hslash hhash hblank,
      decide_eq_decide.mpr hwide, Directive.effect?, Option.map_map]
    rfl
  -- the sources differ in one row, which is as much in the header in one as in the other
  have hother (style style' : CommentStyle) {i : Nat} (hi : i ≠ number) :
      atRow? file (rows style) i = atRow? file (rows style') i := by
    have hset : rows style =
        (rows style').set above.length (before ++ style.around p.text ++ ending) := by
      simp [rows]
    have hsame : HeaderRow (before ++ style.around p.text ++ ending) ↔
        HeaderRow ((rows style').getD above.length []) := by
      rw [hheader style, ← hheader style']
      simp [rows]
    rw [hset, atRow?_set file hsame hi]
  have hparts (style : CommentStyle) :
      (List.range' 1 above.length).filterMap (atRow? file (rows style)) =
        (List.range' 1 above.length).filterMap (atRow? file (rows .block)) ∧
      (List.range' (number + 1) below.length).filterMap (atRow? file (rows style)) =
        (List.range' (number + 1) below.length).filterMap (atRow? file (rows .block)) := by
    constructor
    all_goals
      refine List.filterMap_congr fun i hi => hother style .block ?_
      rw [List.mem_range'_1] at hi
      omega
  have hsource (style : CommentStyle) := @ofSource_append_cons file _ _ _ _ (hrows style)
  refine ⟨fun style => ⟨hrows style, hat style⟩,
    ⟨_, _, fun style => ⟨(hparts style).1, (hparts style).2, ?_⟩⟩, fun style style' => ?_⟩
  · rw [hsource, hat, (hparts style).1, (hparts style).2]
  · rw [hsource, hsource, hat, hat, (hparts style).1, (hparts style).2, (hparts style').1,
      (hparts style').2]

/-- A directive for every rule, with marks of comments in its reason. -/
def starPhrase : Phrase where
  request := .ignore
  rule := ['*']
  reason := some "see #7 // and /* ".toList
  rule_ne_nil := by decide
  isWord := by
    have hstar : isWhitespace '*' = false := by decide
    simpa using hstar
  noDash := by decide
  rule_open := by decide
  rule_unmarked := by decide
  reason_onLine := by decide
  reason_open := by decide
  reason_unmarked := by decide

theorem ofSource_comment_styles_star :
    let rows (style : CommentStyle) :=
      ["<?php\r".toList, "f(); ".toList ++ style.around starPhrase.text ++ ['\r'], "g();".toList]
    let source (style : CommentStyle) := String.ofList (['\n'].intercalate (rows style))
    let given : Suppression := ⟨"*", "see #7 // and /*", "a.php", 2, .line⟩
    (∀ style, atRow? "a.php" (rows style) 2 = some given) ∧
    (∀ style, ofSource "a.php" (source style) = [given]) ∧
    ∀ style, ofSource "a.php" (source style) = ofSource "a.php" (source .block) := by
  intro rows source given
  have habove : ∀ row ∈ ["<?php\r".toList], '\n' ∉ row := by decide
  have hbelow : ∀ row ∈ ["g();".toList], '\n' ∉ row := by decide
  have hbefore : '\n' ∉ "f(); ".toList := by decide
  have hreturn : isWhitespace '\r' = true := by decide
  have hblank : ∀ c ∈ ['\r'], isWhitespace c = true := by simpa using hreturn
  obtain ⟨hat, ⟨earlier, later, hparts⟩, hsame⟩ := ofSource_comment_styles "a.php" starPhrase habove
    hbelow hbefore (by decide) (by decide) hblank (by decide)
  have hgiven : starPhrase.suppression? "a.php" 2
      (decide (FileWide ["<?php\r".toList, "f(); ".toList] 2)) "f(); ".toList = some given := by
    decide
  obtain ⟨rfl, rfl, -⟩ := hparts .block
  exact ⟨fun style => (hat style).2.trans hgiven,
    fun style => (hparts style).2.2.trans (by decide +kernel), fun style => hsame style .block⟩

end Availability.Suppression
