import Availability.Suppression
import Availability.Proofs.Trimming
import Mathlib.Data.List.Infix

/-!
# Directives in comments

A request is spelled out exactly, with whitespace around it. A comment without the words that start
a request has no directive, and whitespace at the end of a line makes no difference to what is found
in it.
-/
namespace Availability.Suppression

open Text

variable {cs rest text : List Char} {request : Request} {c : Char}

/-- A pattern does not reach over a character that it does not have. -/
theorem isInfix_of_isInfix_append_cons {pattern ys : List Char} (hc : c ∉ pattern)
    (xs : List Char) (h : pattern <:+: xs ++ c :: ys) : pattern <:+: xs ∨ pattern <:+: ys := by
  have hstart {start : List Char} (hstart : start <+: c :: ys) (hmem : c ∉ start) : start = [] := by
    obtain ⟨rest, hrest⟩ := hstart
    cases start with
    | nil => rfl
    | cons b start =>
      obtain ⟨rfl, -⟩ := List.cons.inj hrest
      exact absurd List.mem_cons_self hmem
  rcases List.infix_append_iff.mp h with hxs | hcys | ⟨left, right, rfl, hleft, hright⟩
  · exact .inl hxs
  · rcases List.infix_cons_iff.mp hcys with hstarts | hys
    · rw [hstart hstarts hc]
      exact .inl (List.nil_infix)
    · exact .inr hys
  · rw [hstart hright fun hmem => hc (List.mem_append_right left hmem), List.append_nil]
    exact .inl hleft.isInfix

theorem isPrefix_of_isPrefix_append_cons {start xs ys : List Char} (hc : c ∉ start)
    (h : start <+: xs ++ c :: ys) : start <+: xs := by
  rcases List.prefix_or_prefix_of_prefix h (List.prefix_append xs (c :: ys)) with hxs | ⟨rest, rfl⟩
  · exact hxs
  · cases rest with
    | nil => simp
    | cons b rest =>
      obtain ⟨rfl, -⟩ := List.cons_prefix_cons.mp ((List.prefix_append_right_inj xs).mp h)
      simp at hc

/-- What follows `ignore` in a request. -/
def Request.ending : Request → List Char
  | .ignore => []
  | .ignoreNextLine => "-next-line".toList
  | .ignoreFile => "-file".toList

/-- A text starts with a request: blanks may stand before it, and some stand between it and the
rest. -/
def Requests (cs : List Char) (request : Request) (rest : List Char) : Prop :=
  ∃ blanks gap, cs = blanks ++ (marker ++ (request.ending ++ (gap ++ rest))) ∧
    (∀ b ∈ blanks, isWhitespace b = true) ∧ (∀ b ∈ gap, isWhitespace b = true) ∧ gap ≠ [] ∧
    ∀ b ∈ rest.head?, isWhitespace b = false

theorem exists_gap (h : cs.head?.any isWhitespace = true) :
    ∃ gap, cs = gap ++ trimStart cs ∧ (∀ b ∈ gap, isWhitespace b = true) ∧ gap ≠ [] := by
  obtain ⟨gap, heq, hgap⟩ := exists_eq_append_trimStart cs
  refine ⟨gap, heq, hgap, ?_⟩
  rintro rfl
  cases cs with
  | nil => simp at h
  | cons b cs =>
    have hb : isWhitespace b = true := by simpa using h
    have hlength := congrArg List.length heq
    have hle := (List.dropWhile_suffix isWhitespace (l := cs)).length_le
    simp only [trimStart, hb, List.nil_append, List.dropWhile_cons_of_pos, List.length_cons]
      at hlength
    omega

theorem requests_of_request? (h : request? cs = some (request, rest)) :
    Requests cs request rest := by
  obtain ⟨blanks, hcs, hblanks⟩ := exists_eq_append_trimStart cs
  rw [request?] at h
  split at h
  case h_1 => cases h
  case h_2 after hmarker =>
    rw [dropStart?_eq_some_iff.mp hmarker] at hcs
    -- the three requests differ only in what has to follow the marker
    have hread (q : Request) (r : List Char) (hafter : after = q.ending ++ r)
        (hr : (if r.head?.any isWhitespace then some (q, trimStart r) else none) =
          some (request, rest)) : Requests cs request rest := by
      split at hr
      case isTrue hhead =>
        obtain ⟨gap, hgapEq, hgap, hne⟩ := exists_gap hhead
        cases hr
        refine ⟨blanks, gap, ?_, hblanks, hgap, hne, head?_trimStart r⟩
        rw [← hgapEq, ← hafter]
        exact hcs
      case isFalse => cases hr
    dsimp only at h
    split at h
    case h_1 hdrop => exact hread .ignoreFile _ (dropStart?_eq_some_iff.mp hdrop) h
    case h_2 hdrop => exact hread .ignoreNextLine _ (dropStart?_eq_some_iff.mp hdrop) h
    case h_3 => exact hread .ignore after rfl h

theorem dropStart?_ending (hhead : rest.head?.any isWhitespace = true) (request : Request) :
    dropStart? "-file".toList (request.ending ++ rest) =
        (if request = .ignoreFile then some rest else none) ∧
      dropStart? "-next-line".toList (request.ending ++ rest) =
        (if request = .ignoreNextLine then some rest else none) := by
  have hnone (start : List Char) : dropStart? ('-' :: start) rest = none := by
    cases rest with
    | nil => rfl
    | cons b rest =>
      have hdash : '-' ≠ b := by
        rintro rfl
        have hblank : isWhitespace '-' = true := by simpa using hhead
        exact absurd hblank (by decide)
      rw [dropStart?, if_neg (by simpa using hdash)]
  cases request with
  | ignore => exact ⟨hnone _, hnone _⟩
  | ignoreNextLine => exact ⟨rfl, rfl⟩
  | ignoreFile => exact ⟨rfl, rfl⟩

theorem request?_of_requests (h : Requests cs request rest) :
    request? cs = some (request, rest) := by
  obtain ⟨blanks, gap, rfl, hblanks, hgap, hne, htrimmed⟩ := h
  have hhead : (gap ++ rest).head?.any isWhitespace = true := by
    obtain ⟨g, gap, rfl⟩ := List.exists_cons_of_ne_nil hne
    simpa using hgap g List.mem_cons_self
  have htrim : trimStart (gap ++ rest) = rest := by
    rw [trimStart_append_of_blank hgap, trimStart_eq_self htrimmed]
  obtain ⟨hfile, hnext⟩ := dropStart?_ending hhead request
  have hmarker (after : List Char) :
      dropStart? marker (trimStart (blanks ++ (marker ++ after))) = some after := by
    rw [trimStart_append_of_blank hblanks, trimStart_eq_self]
    · exact dropStart?_eq_some_iff.mpr rfl
    · intro b hb
      cases hb
      decide
  -- as variables, so that the literals are not unfolded
  generalize gap ++ rest = tail at hhead htrim hfile hnext
  generalize hafter : request.ending ++ tail = after at hfile hnext
  rw [request?, hmarker after]
  dsimp only
  rw [hfile, hnext]
  cases request with
  | ignore =>
    have htail : tail = after := hafter
    subst htail
    simp [hhead, htrim]
  | ignoreNextLine => simp [hhead, htrim]
  | ignoreFile => simp [hhead, htrim]

/-- Whitespace at the end of a comment belongs to the rest after its request, if there is a rest. -/
theorem request?_concat (hc : isWhitespace c = true) (cs : List Char) :
    (∃ request rest, rest ≠ [] ∧ request? cs = some (request, rest) ∧
      request? (cs ++ [c]) = some (request, rest ++ [c])) ∨
    ((∀ request rest, request? cs = some (request, rest) → rest = []) ∧
      ∀ request rest, request? (cs ++ [c]) = some (request, rest) → rest = []) := by
  by_cases hrest : ∃ request rest, rest ≠ [] ∧ request? cs = some (request, rest)
  · obtain ⟨request, rest, hne, hread⟩ := hrest
    obtain ⟨blanks, gap, hcs, hblanks, hgap, hgapNe, htrimmed⟩ := requests_of_request? hread
    refine .inl ⟨request, rest, hne, hread, request?_of_requests ?_⟩
    refine ⟨blanks, gap, by simp [hcs], hblanks, hgap, hgapNe, ?_⟩
    rwa [List.head?_append_of_ne_nil _ hne]
  · refine .inr ⟨fun request rest hread => ?_, fun request rest hread => ?_⟩
    · by_contra hne
      exact hrest ⟨request, rest, hne, hread⟩
    · by_contra hne
      obtain ⟨blanks, gap, hcs, hblanks, hgap, hgapNe, htrimmed⟩ := requests_of_request? hread
      obtain ⟨init, last, rfl⟩ := (List.eq_nil_or_concat' rest).resolve_left hne
      simp only [← List.append_assoc] at hcs
      obtain ⟨rfl, hlast⟩ := List.append_inj' hcs rfl
      cases hlast
      have hinit : init ≠ [] := by
        rintro rfl
        have hnot := htrimmed c rfl
        rw [hc] at hnot
        cases hnot
      refine hrest ⟨request, init, hinit, request?_of_requests ?_⟩
      refine ⟨blanks, gap, by simp, hblanks, hgap, hgapNe, ?_⟩
      rwa [List.head?_append_of_ne_nil _ hinit] at htrimmed

theorem lineDirective?_eq_none
    (h : ∀ request rest, request? cs = some (request, rest) → rest = []) :
    lineDirective? cs = none := by
  rw [lineDirective?]
  split
  case h_1 => rfl
  case h_2 request rest hread =>
    cases h request rest hread
    rfl

theorem blockDirective?_eq_none
    (h : ∀ request rest, request? cs = some (request, rest) → rest = []) :
    blockDirective? cs = none := by
  rw [blockDirective?]
  split
  case h_1 => rfl
  case h_2 request rest hread =>
    cases h request rest hread
    rfl

theorem lineDirective?_concat (hc : isWhitespace c = true) (cs : List Char) :
    lineDirective? (cs ++ [c]) = lineDirective? cs := by
  obtain ⟨request, rest, hne, hread, hread'⟩ | ⟨hnil, hnil'⟩ := request?_concat hc cs
  · rw [lineDirective?, lineDirective?, hread, hread']
    dsimp only
    rw [takeWord_concat hc, dropWord_concat hc, trimStart_concat hc]
    generalize rest.takeWhile (fun b => !isWhitespace b) = rule
    generalize trimStart (rest.dropWhile fun b => !isWhitespace b) = tail
    cases rule with
    | nil => rfl
    | cons r rule =>
      cases tail with
      | nil => rfl
      | cons b tail =>
        by_cases hdash : b = '-'
        · subst hdash
          simp [trimChars_concat hc]
        · simp [hdash]
  · rw [lineDirective?_eq_none hnil, lineDirective?_eq_none hnil']

/-- A comment is closed by the first mark that closes one. -/
theorem beforeClose?_eq_some_iff {inner : List Char} :
    beforeClose? cs = some inner ↔
      ∃ after, cs = inner ++ '*' :: '/' :: after ∧ ¬ ['*', '/'] <:+: inner := by
  fun_induction beforeClose? cs generalizing inner with
  | case1 => simp
  | case2 rest =>
    constructor
    · intro h
      cases h
      exact ⟨rest, rfl, by simp⟩
    · rintro ⟨after, hcs, hopen⟩
      cases inner with
      | nil => rfl
      | cons a inner =>
        obtain ⟨rfl, hrest⟩ := List.cons.inj hcs
        cases inner with
        | nil => simp at hrest
        | cons a' inner =>
          obtain ⟨rfl, -⟩ := List.cons.inj hrest
          exact absurd ⟨[], inner, rfl⟩ hopen
  | case3 b cs hnot ih =>
    rw [Option.map_eq_some_iff]
    constructor
    · rintro ⟨inner, hinner, rfl⟩
      obtain ⟨after, rfl, hopen⟩ := ih.mp hinner
      refine ⟨after, rfl, fun hpart => ?_⟩
      rcases List.infix_cons_iff.mp hpart with ⟨rest, hrest⟩ | hpart
      · obtain ⟨rfl, rfl⟩ := List.cons.inj hrest
        exact hnot _ rfl rfl
      · exact hopen hpart
    · rintro ⟨after, hcs, hopen⟩
      cases inner with
      | nil =>
        obtain ⟨rfl, rfl⟩ := List.cons.inj hcs
        exact (hnot _ rfl rfl).elim
      | cons a inner =>
        obtain ⟨rfl, rfl⟩ := List.cons.inj hcs
        refine ⟨inner, ih.mpr ⟨after, rfl, fun hpart => hopen ?_⟩, rfl⟩
        exact hpart.trans (List.suffix_cons b inner).isInfix

theorem beforeClose?_concat (hc : c ≠ '/') (cs : List Char) :
    beforeClose? (cs ++ [c]) = beforeClose? cs := by
  fun_induction beforeClose? cs with
  | case1 => simp [beforeClose?]
  | case2 => rfl
  | case3 b cs hnot ih =>
    rw [List.cons_append, beforeClose?, ih]
    intro rest hb hrest
    cases cs with
    | nil => simp_all
    | cons b' cs => simp_all

theorem blockReason?_concat (hc : isWhitespace c = true) (cs : List Char) :
    blockReason? (cs ++ [c]) = blockReason? cs := by
  have hslash : c ≠ '/' := by
    rintro rfl
    exact absurd hc (by decide)
  rw [blockReason?, blockReason?, trimStart_concat hc]
  generalize trimStart cs = tail
  rcases tail with _ | ⟨b, tail⟩
  · rfl
  · rw [if_neg (List.cons_ne_nil b tail), List.cons_append]
    by_cases hdash : b = '-'
    · subst hdash
      simp [beforeClose?_concat hslash]
    · cases tail with
      | nil => simp [hdash, hslash]
      | cons b' tail =>
        by_cases hclose : b = '*' ∧ b' = '/'
        · simp [hclose]
        · grind

theorem blockRule?_concat (hc : isWhitespace c = true) (cs : List Char) :
    blockRule? (cs ++ [c]) = blockRule? cs := by
  induction cs with
  | nil => simp [blockRule?, hc]
  | cons b cs ih => rw [List.cons_append, blockRule?, blockRule?, blockReason?_concat hc, ih]

theorem blockDirective?_concat (hc : isWhitespace c = true) (cs : List Char) :
    blockDirective? (cs ++ [c]) = blockDirective? cs := by
  obtain ⟨request, rest, hne, hread, hread'⟩ | ⟨hnil, hnil'⟩ := request?_concat hc cs
  · rw [blockDirective?, blockDirective?, hread, hread']
    dsimp only
    rw [blockRule?_concat hc]
  · rw [blockDirective?_eq_none hnil, blockDirective?_eq_none hnil']

namespace CommentStyle

variable {style : CommentStyle} {d : Directive}

/-- The marks that open a comment, the longer ones first. -/
def marks : CommentStyle → List (List Char)
  | slashes => [['/', '/']]
  | hash => [['#']]
  | block => [['/', '*', '*'], ['/', '*']]

/-- The directive after the mark of a comment. -/
def body? : CommentStyle → List Char → Option Directive
  | block => blockDirective?
  | _ => lineDirective?

theorem directive?_eq_bind (style : CommentStyle) (text : List Char) :
    style.directive? text =
      (style.marks.findSome? fun mark => dropStart? mark text).bind style.body? := by
  cases hmark : style.marks.findSome? fun mark => dropStart? mark text with
  | none =>
    rw [List.findSome?_eq_none_iff] at hmark
    unfold directive?
    split <;> simp_all [marks, dropStart?]
  | some cs =>
    cases style with
    | slashes =>
      have htext : text = '/' :: '/' :: cs := by simpa [marks, dropStart?_eq_some_iff] using hmark
      rw [htext]
      rfl
    | hash =>
      have htext : text = '#' :: cs := by simpa [marks, dropStart?_eq_some_iff] using hmark
      rw [htext]
      rfl
    | block =>
      cases hdoc : dropStart? ['/', '*', '*'] text with
      | some inner =>
        have hcs : inner = cs := by simpa [marks, hdoc] using hmark
        rw [dropStart?_eq_some_iff.mp hdoc, hcs]
        rfl
      | none =>
        have htext : text = '/' :: '*' :: cs := by
          simpa [marks, hdoc, dropStart?_eq_some_iff] using hmark
        rw [htext] at hdoc ⊢
        unfold directive?
        split <;> simp_all [dropStart?, body?]

theorem requests_of_body? (h : style.body? cs = some d) : ∃ rest, Requests cs d.request rest := by
  cases style with
  | block =>
    change blockDirective? cs = some d at h
    rw [blockDirective?] at h
    split at h
    · cases h
    · rename_i hread
      obtain ⟨_, -, rfl⟩ := Option.map_eq_some_iff.mp h
      exact ⟨_, requests_of_request? hread⟩
  | slashes | hash =>
    change lineDirective? cs = some d at h
    rw [lineDirective?] at h
    split at h
    · cases h
    · rename_i hread
      split at h <;> cases h <;> exact ⟨_, requests_of_request? hread⟩

/-- A comment with a directive is a mark and a request, and then the rest. -/
theorem exists_mark_of_directive? (h : style.directive? text = some d) :
    ∃ mark cs, mark ∈ style.marks ∧ text = mark ++ cs ∧ style.body? cs = some d := by
  rw [directive?_eq_bind] at h
  obtain ⟨cs, hmark, hbody⟩ := Option.bind_eq_some_iff.mp h
  obtain ⟨mark, hmem, hdrop⟩ := List.exists_of_findSome?_eq_some hmark
  exact ⟨mark, cs, hmem, dropStart?_eq_some_iff.mp hdrop, hbody⟩

/-- The words of a request stand in every comment with a directive. -/
theorem marker_isInfix_of_directive? (h : style.directive? text = some d) : marker <:+: text := by
  obtain ⟨mark, cs, -, rfl, hbody⟩ := exists_mark_of_directive? h
  obtain ⟨rest, blanks, gap, rfl, -⟩ := requests_of_body? hbody
  exact ⟨mark ++ blanks, d.request.ending ++ (gap ++ rest), by simp⟩

theorem body?_concat (style : CommentStyle) (hc : isWhitespace c = true) (cs : List Char) :
    style.body? (cs ++ [c]) = style.body? cs := by
  cases style with
  | slashes => exact lineDirective?_concat hc cs
  | hash => exact lineDirective?_concat hc cs
  | block => exact blockDirective?_concat hc cs

theorem directive?_concat (style : CommentStyle) (hc : isWhitespace c = true) (text : List Char) :
    style.directive? (text ++ [c]) = style.directive? text := by
  have hmarks : ∀ mark ∈ style.marks, c ∉ mark := by
    intro mark hmark hmem
    have hplain : ∀ mark ∈ style.marks, mark.all (fun b => !isWhitespace b) = true := by
      cases style <;> decide
    have hnot := List.all_eq_true.mp (hplain mark hmark) c hmem
    rw [hc] at hnot
    cases hnot
  rw [directive?_eq_bind, directive?_eq_bind, findSome?_dropStart?_concat hmarks, Option.bind_map]
  congr 1
  exact funext (style.body?_concat hc)

/-- Whitespace at the end of a line makes no difference to the directive that is found in it. -/
theorem find?_concat (style : CommentStyle) (hc : isWhitespace c = true) (text : List Char) :
    style.find? (text ++ [c]) = style.find? text := by
  induction text with
  | nil =>
    have hnone := style.directive?_concat hc []
    rw [List.nil_append] at hnone ⊢
    simp only [find?, hnone]
    cases style <;> rfl
  | cons a text ih =>
    have hhere := style.directive?_concat hc (a :: text)
    rw [List.cons_append] at hhere ⊢
    rw [find?, find?, hhere, ih]

theorem find?_append_of_blank {blanks : List Char} (style : CommentStyle)
    (hblanks : ∀ b ∈ blanks, isWhitespace b = true) (text : List Char) :
    style.find? (text ++ blanks) = style.find? text := by
  induction blanks generalizing text with
  | nil => rw [List.append_nil]
  | cons b blanks ih =>
    rw [List.forall_mem_cons] at hblanks
    rw [List.append_cons, ih hblanks.2, style.find?_concat hblanks.1]

theorem find?_cons_eq_none {a : Char} (hhere : style.directive? (a :: text) = none)
    (hrest : style.find? text = none) : style.find? (a :: text) = none := by
  rw [find?, hhere, hrest]
  rfl

/-- Nothing is found in a line without the words of a request. -/
theorem find?_eq_none_of_not_isInfix (style : CommentStyle) (h : ¬ marker <:+: text) :
    style.find? text = none := by
  induction text with
  | nil => rfl
  | cons a text ih =>
    have hhere : style.directive? (a :: text) = none := by
      rw [Option.eq_none_iff_forall_ne_some]
      exact fun d hd => h (marker_isInfix_of_directive? hd)
    exact find?_cons_eq_none hhere
      (ih fun hpart => h (hpart.trans (List.suffix_cons a text).isInfix))

theorem directive?_eq_none_of_head {a : Char} (style : CommentStyle) (hslash : a ≠ '/')
    (hhash : a ≠ '#') (text : List Char) : style.directive? (a :: text) = none := by
  unfold directive?
  split <;> simp_all

/-- A text without the first characters of marks has no part in what is found after it. -/
theorem find?_append_of_plain {before : List Char} (style : CommentStyle)
    (hslash : '/' ∉ before) (hhash : '#' ∉ before) (text : List Char) :
    style.find? (before ++ text) =
      (style.find? text).map fun found => (before ++ found.1, found.2) := by
  induction before with
  | nil => simp
  | cons a before ih =>
    rw [List.mem_cons, not_or] at hslash hhash
    have hhere := style.directive?_eq_none_of_head (Ne.symm hslash.1) (Ne.symm hhash.1)
      (before ++ text)
    rw [List.cons_append, find?, hhere, ih hslash.2 hhash.2, Option.map_map]
    rfl

/-- What is found in a line is the directive of a comment that follows what stands before it. -/
theorem find?_sound {before : List Char} (h : style.find? text = some (before, d)) :
    ∃ comment, text = before ++ comment ∧ style.directive? comment = some d := by
  induction text generalizing before with
  | nil => cases h
  | cons a text ih =>
    rw [find?] at h
    split at h
    · rename_i hhere
      cases h
      exact ⟨a :: text, rfl, hhere⟩
    · obtain ⟨⟨rest, d'⟩, hfound, heq⟩ := Option.map_eq_some_iff.mp h
      cases heq
      obtain ⟨comment, rfl, hcomment⟩ := ih hfound
      exact ⟨comment, rfl, hcomment⟩

end CommentStyle

/-- What the suppression of a line says does not depend on whitespace at its end. -/
theorem ofLine?_concat (file : String) (header : Bool) (line : Nat) (hc : isWhitespace c = true)
    (text : List Char) :
    ofLine? file header line (text ++ [c]) = ofLine? file header line text := by
  simp only [ofLine?, CommentStyle.find?_concat _ hc]

end Availability.Suppression
