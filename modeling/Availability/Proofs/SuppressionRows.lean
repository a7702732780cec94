import Availability.Proofs.Directives
import Availability.Proofs.Rows

/-!
# Suppressions row by row

The suppressions of a source are those of its rows. What a row says depends on its own text and on
whether requests for the file count on it; the rows above matter only for the latter, and only by
whether they belong to the header.
-/
namespace Availability.Suppression

open Text

variable {cs row : List Char} {rows : List (List Char)} {c : Char} {i : Nat}

/-- A blank row, or one that starts with the opening tag or like a comment. -/
def HeaderRow (row : List Char) : Prop :=
  trimChars row = [] ∨
    ∃ start ∈ ["<?php", "//", "#", "/*", "*"], start.toList <+: trimChars row

/-- Requests for the file count on the row with a number: it is one of the first ten, or all rows
up to it belong to the header. -/
def FileWide (rows : List (List Char)) (number : Nat) : Prop :=
  number ≤ 10 ∨ ∀ row ∈ rows.take number, HeaderRow row

instance (row : List Char) : Decidable (HeaderRow row) :=
  inferInstanceAs (Decidable (_ ∨ _))

instance (rows : List (List Char)) (number : Nat) : Decidable (FileWide rows number) :=
  inferInstanceAs (Decidable (_ ∨ _))

/-- What a suppression says, wherever it stands. -/
structure Effect where
  reach : Reach
  rule : String
  reason : String
  deriving DecidableEq

/-- The suppression with an effect on a row of a file; one for the file has no row. -/
def Effect.onRow (e : Effect) (file : String) (number : Nat) : Suppression :=
  ⟨e.rule, e.reason, file, if e.reach = .file then 0 else number, e.reach⟩

/-- How far a request reaches, given whether requests for the file count and whether nothing stands
before the comment. -/
def Request.reach? (fileWide alone : Bool) : Request → Option Reach
  | .ignore => some (if alone then .nextLine else .line)
  | .ignoreNextLine => some .nextLine
  | .ignoreFile => if fileWide then some .file else none

/-- What a directive says after some text of its row. -/
def Directive.effect? (d : Directive) (fileWide : Bool) (before : List Char) : Option Effect :=
  (d.request.reach? fileWide (before.all isWhitespace)).map
    (⟨·, String.ofList d.rule, String.ofList d.reason⟩)

/-- What a row says, given whether requests for the file count on it. -/
def effect? (fileWide : Bool) (row : List Char) : Option Effect :=
  CommentStyle.all.findSome? fun style =>
    (style.find? row).bind fun found => found.2.effect? fileWide found.1

/-- The suppression of the row with a number. -/
def atRow? (file : String) (rows : List (List Char)) : Nat → Option Suppression
  | 0 => none
  | i + 1 =>
    rows[i]?.bind fun row =>
      (effect? (decide (FileWide rows (i + 1))) row).map (·.onRow file (i + 1))

/-! ## The suppression of a row -/

theorem isHeaderLine_iff : isHeaderLine row = true ↔ HeaderRow row := by
  simp only [isHeaderLine, HeaderRow, Bool.or_eq_true, List.isEmpty_iff, List.any_eq_true,
    startsWith_iff]

theorem headerRow_iff : HeaderRow row ↔ trimStart row = [] ∨
    ∃ start ∈ ["<?php", "//", "#", "/*", "*"], start.toList <+: trimStart row := by
  have hplain : ∀ start ∈ ["<?php", "//", "#", "/*", "*"],
      start.toList.all (fun b => !isWhitespace b) = true := by decide
  rw [HeaderRow, trimChars_eq_nil_iff]
  refine or_congr_right (exists_congr fun start => and_congr_right fun hstart => ?_)
  exact isPrefix_trimChars_iff (by simpa using hplain start hstart)

theorem isHeaderLine_concat (hc : isWhitespace c = true) (row : List Char) :
    isHeaderLine (row ++ [c]) = isHeaderLine row := by
  simp only [isHeaderLine, trimChars_concat hc]

theorem ofDirective?_eq_effect? (file : String) (header : Bool) (line : Nat) (before : List Char)
    (d : Directive) :
    ofDirective? file header line before d = (d.effect? header before).map (·.onRow file line) := by
  unfold ofDirective? Directive.effect?
  cases d.request with
  | ignore =>
    by_cases hblank : before.all isWhitespace = true <;> simp [Request.reach?, hblank, Effect.onRow]
  | ignoreNextLine => rfl
  | ignoreFile => cases header <;> rfl

theorem ofLine?_eq_effect? (file : String) (header : Bool) (line : Nat) (row : List Char) :
    ofLine? file header line row = (effect? header row).map (·.onRow file line) := by
  rw [effect?, ofLine?, List.map_findSome?]
  congr 1
  funext style
  rw [Function.comp_apply]
  cases style.find? row with
  | none => rfl
  | some found => exact ofDirective?_eq_effect? file header line found.1 found.2

/-- Where requests for the file do not count, no suppression is for the file. -/
theorem reach_ne_file_of_effect? {e : Effect} (h : effect? false row = some e) :
    e.reach ≠ .file := by
  obtain ⟨style, -, hstyle⟩ := List.exists_of_findSome?_eq_some h
  obtain ⟨found, -, hfound⟩ := Option.bind_eq_some_iff.mp hstyle
  obtain ⟨reach, hreach, rfl⟩ := Option.map_eq_some_iff.mp hfound
  rintro rfl
  cases hrequest : found.2.request <;> rw [hrequest] at hreach
  · by_cases hblank : found.1.all isWhitespace = true <;> simp [Request.reach?, hblank] at hreach
  · cases hreach
  · cases hreach

/-! ## The rows of a source -/

theorem ofLines_map_dropLast (file : String) (header : Bool) (line : Nat)
    (above below : List (List Char)) :
    ofLines file header line (above.map (Text.dropLast '\r') ++ below) =
      ofLines file header line (above ++ below) := by
  have hreturn : isWhitespace '\r' = true := by decide
  induction above generalizing header line with
  | nil => rfl
  | cons row above ih =>
    have hsame : isHeaderLine (Text.dropLast '\r' row) = isHeaderLine row ∧
        ∀ header, ofLine? file header line (Text.dropLast '\r' row) =
          ofLine? file header line row := by
      rw [Text.dropLast]
      split
      case isTrue hlast =>
        have hrow := List.dropLast_append_getLast? '\r' (by simpa using hlast)
        constructor
        · rw [← isHeaderLine_concat hreturn, hrow]
        · intro header
          rw [← ofLine?_concat file header line hreturn, hrow]
      case isFalse => simp
    rw [List.map_cons, List.cons_append, List.cons_append, ofLines, ofLines, hsame.1, hsame.2, ih]

theorem ofLines_concat_nil (file : String) (header : Bool) (line : Nat)
    (rows : List (List Char)) :
    ofLines file header line (rows ++ [[]]) = ofLines file header line rows := by
  induction rows generalizing header line with
  | nil => rfl
  | cons row rows ih => rw [List.cons_append, ofLines, ofLines, ih]

/-- Neither carriage returns at the ends of lines nor a last line feed make a difference. -/
theorem ofSource_eq_ofLines_rows (file source : String) :
    ofSource file source = ofLines file true 1 (Text.rows source.toList) := by
  obtain ⟨above, last, hrows⟩ := (List.eq_nil_or_concat' (Text.rows source.toList)).resolve_left
    (split_ne_nil '\n' source.toList)
  rw [ofSource, Text.lines, ← Text.rows, hrows]
  simp only [List.dropLast_concat, List.getLast?_concat]
  cases last with
  | nil =>
    have hlines := ofLines_map_dropLast file true 1 above []
    rw [List.append_nil, List.append_nil] at hlines
    rw [ofLines_concat_nil]
    exact hlines
  | cons b last => exact ofLines_map_dropLast file true 1 above [b :: last]

theorem fileWide_append_cons_iff (above below : List (List Char)) (row : List Char) :
    FileWide (above ++ row :: below) (above.length + 1) ↔
      above.length + 1 ≤ 10 ∨ (∀ other ∈ above, HeaderRow other) ∧ HeaderRow row := by
  have htake : (above ++ row :: below).take (above.length + 1) = above ++ [row] := by
    simp [List.take_append]
  rw [FileWide, htake, List.forall_mem_append, List.forall_mem_singleton]

theorem header_eq_fileWide (above below : List (List Char)) (row : List Char) :
    ((above ++ [row]).all isHeaderLine || decide (above.length + 1 ≤ headerLines)) =
      decide (FileWide (above ++ row :: below) (above.length + 1)) := by
  rw [Bool.eq_iff_iff, decide_eq_true_iff, fileWide_append_cons_iff, Bool.or_eq_true, or_comm]
  simp [isHeaderLine_iff, headerLines]

theorem ofLines_eq_filterMap (file : String) (above below : List (List Char)) :
    ofLines file (above.all isHeaderLine) (above.length + 1) below =
      (List.range' (above.length + 1) below.length).filterMap (atRow? file (above ++ below)) := by
  induction below generalizing above with
  | nil => rfl
  | cons row below ih =>
    have hall : (above.all isHeaderLine && isHeaderLine row) =
        (above ++ [row]).all isHeaderLine := by
      simp
    have hrow : atRow? file (above ++ row :: below) (above.length + 1) =
        ofLine? file (decide (FileWide (above ++ row :: below) (above.length + 1)))
          (above.length + 1) row := by
      rw [ofLine?_eq_effect?, atRow?]
      simp
    have hbelow := ih (above ++ [row])
    simp only [List.append_assoc, List.singleton_append, List.length_append, List.length_singleton]
      at hbelow
    rw [ofLines, hall, header_eq_fileWide above below row, hbelow, ← hrow, List.length_cons,
      List.range'_succ, List.filterMap_cons]
    cases atRow? file (above ++ row :: below) (above.length + 1) <;> rfl

/-- The suppressions of a source are those of its rows, from the first to the last. -/
theorem ofSource_eq_filterMap (file source : String) :
    ofSource file source =
      (List.range' 1 (Text.rows source.toList).length).filterMap
        (atRow? file (Text.rows source.toList)) := by
  rw [ofSource_eq_ofLines_rows]
  exact ofLines_eq_filterMap file [] (Text.rows source.toList)

/-- The suppression of a row stands between those of the rows above and below it. -/
theorem ofSource_append_cons {file source : String} {above below : List (List Char)}
    {row : List Char} (hrows : Text.rows source.toList = above ++ row :: below) :
    let at? := atRow? file (above ++ row :: below)
    ofSource file source = (List.range' 1 above.length).filterMap at? ++
      (at? (above.length + 1)).toList ++
        (List.range' (above.length + 2) below.length).filterMap at? := by
  intro at?
  have hnumbers : List.range' 1 (above ++ row :: below).length = List.range' 1 above.length ++
      (above.length + 1) :: List.range' (above.length + 2) below.length := by
    rw [List.length_append, List.length_cons, ← List.range'_append_1, List.range'_succ,
      Nat.add_comm 1]
  rw [ofSource_eq_filterMap, hrows, hnumbers]
  simp only [List.filterMap_eq_flatMap_toList, List.flatMap_append, List.flatMap_cons,
    List.append_assoc, at?]

/-! ## Changes of a row -/

theorem fileWide_set (hsame : HeaderRow row ↔ HeaderRow (rows.getD i [])) (number : Nat) :
    FileWide (rows.set i row) number ↔ FileWide rows number := by
  have hforall (rows : List (List Char)) : (∀ r ∈ rows.take number, HeaderRow r) ↔
      ∀ k < number, ∀ r, rows[k]? = some r → HeaderRow r := by
    constructor
    · intro h k hk r hr
      refine h r (List.mem_of_getElem? (i := k) ?_)
      rwa [List.getElem?_take_of_lt hk]
    · intro h r hr
      obtain ⟨k, hk⟩ := List.mem_iff_getElem?.mp hr
      rw [List.getElem?_take] at hk
      split at hk
      case isTrue hlt => exact h k hlt r hk
      case isFalse => cases hk
  rw [FileWide, FileWide, hforall, hforall]
  refine or_congr_right (forall₂_congr fun k _ => ?_)
  by_cases hki : i = k
  · subst hki
    by_cases hlength : i < rows.length
    · simp [hlength, hsame]
    · simp [hlength]
  · rw [List.getElem?_set_ne hki]

/-- A row that is changed, but belongs to the header as much as before, makes no difference to the
other rows. -/
theorem atRow?_set (file : String) (hsame : HeaderRow row ↔ HeaderRow (rows.getD i []))
    {number : Nat} (hnumber : number ≠ i + 1) :
    atRow? file (rows.set i row) number = atRow? file rows number := by
  cases number with
  | zero => rfl
  | succ j =>
    have hj : i ≠ j := by omega
    simp only [atRow?, List.getElem?_set_ne hj, fileWide_set hsame]

theorem line_of_atRow? {file : String} {number : Nat} {s : Suppression}
    (h : atRow? file rows number = some s) :
    s.file = file ∧ if s.reach = .file then s.line = 0 ∧ FileWide rows number
      else s.line = number := by
  cases number with
  | zero => cases h
  | succ i =>
    obtain ⟨row, -, hrow⟩ := Option.bind_eq_some_iff.mp h
    obtain ⟨e, he, rfl⟩ := Option.map_eq_some_iff.mp hrow
    refine ⟨rfl, ?_⟩
    by_cases hfile : e.reach = .file
    · have hwide : FileWide rows (i + 1) := by
        by_contra hnot
        rw [decide_eq_false hnot] at he
        exact reach_ne_file_of_effect? he hfile
      simp [Effect.onRow, hfile, hwide]
    · simp [Effect.onRow, hfile]

/-- Every row of a source gives at most one suppression, in the order of the rows, by its text and
by whether requests for the file count on it. Those for the file have line 0 and stand where they
count; all others have the number of their row. Changing one row, and not whether it belongs to the
header, changes nothing for the others. The lines of nodes are the numbers of the same rows. -/
theorem ofSource_line_local (file source : String) :
    let rows := Text.rows source.toList
    (source.toList = ['\n'].intercalate rows ∧ ∀ row ∈ rows, '\n' ∉ row) ∧
    ofSource file source = (List.range' 1 rows.length).filterMap (atRow? file rows) ∧
    (∀ number s, atRow? file rows number = some s → s.file = file ∧
      if s.reach = .file then s.line = 0 ∧ FileWide rows number else s.line = number) ∧
    (∀ other i row, Text.rows other = rows.set i row →
      (HeaderRow row ↔ HeaderRow (rows.getD i [])) →
      ∀ number ≠ i + 1, atRow? file (Text.rows other) number = atRow? file rows number) ∧
    ∀ content path n, Text.decode? content = some source → path ≠ [] →
      (Php.parseBytes content).at? path = some n →
      ∃ start stop, n.Spans (Text.units content) start stop ∧
        Text.OnRow source.toList n.line start := by
  intro rows
  obtain ⟨htext, -, hrows⟩ := split_eq_iff.mp (rfl : split '\n' source.toList = rows)
  refine ⟨⟨htext, hrows⟩, ofSource_eq_filterMap file source, fun number s => line_of_atRow?, ?_, ?_⟩
  · intro other i row hother hsame number hnumber
    rw [hother]
    exact atRow?_set file hsame hnumber
  · intro content path n hsource hpath hn
    obtain ⟨start, stop, hspans⟩ := Php.exists_spans_of_at? hpath hn
    refine ⟨start, stop, hspans, ?_⟩
    rw [units_of_decode? hsource] at hspans
    exact hspans.onRow

theorem ofSource_line_local_annotated :
    let source := "<?php\r\n# wpcompat:ignore-file *\n f(); // wpcompat:ignore *\n"
    let rows := Text.rows source.toList
    let other := "<?php\r\n# wpcompat:ignore-file *\n g();\n".toList
    ofSource "a.php" source = [⟨"*", "", "a.php", 0, .file⟩, ⟨"*", "", "a.php", 3, .line⟩] ∧
    Text.rows other = rows.set 2 " g();".toList ∧
    (∀ number ≠ 3, atRow? "a.php" (Text.rows other) number = atRow? "a.php" rows number) ∧
    ∃ n, (Php.parseBytes (Text.encode source)).at? [1] = some n ∧ n.line = 3 ∧
      ∃ start stop, n.Spans (Text.units (Text.encode source)) start stop ∧
        Text.OnRow source.toList 3 start := by
  intro source rows other
  obtain ⟨-, hall, -, hlocal, hnodes⟩ := ofSource_line_local "a.php" source
  have hother : Text.rows other = rows.set 2 " g();".toList := by decide +kernel
  have hsame : HeaderRow " g();".toList ↔ HeaderRow (rows.getD 2 []) := by decide +kernel
  have hline : ((Php.parseBytes (Text.encode source)).at? [1]).map Php.Node.line = some 3 := by
    decide +kernel
  obtain ⟨n, hn, hthree⟩ := Option.map_eq_some_iff.mp hline
  refine ⟨?_, hother, hlocal other 2 " g();".toList hother hsame, n, hn, hthree, ?_⟩
  · rw [hall]
    decide +kernel
  · obtain ⟨start, stop, hspans, hrow⟩ := hnodes _ [1] n (Text.decode?_encode source) (by decide) hn
    exact ⟨start, stop, hspans, hthree ▸ hrow⟩

end Availability.Suppression
