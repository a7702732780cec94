import Availability.Proofs.Encoding
import Availability.Proofs.GrammarExtents
import Availability.Proofs.Traversal
import Availability.Proofs.VersionGrammar
import Mathlib.Data.List.Induction

/-!
# Rows of texts and lines of nodes

The rows of a text are what stands between its line feeds, numbered from 1. Every node of the tree
of a text starts on the row that has the number of its line.
-/
namespace Availability

namespace Text

variable {cs before after : List Char}

/-- What stands between the line feeds of a text. -/
def rows (cs : List Char) : List (List Char) :=
  split '\n' cs

/-- The offset of a text is inside or at the end of the row with a number: the rows before it, each
with its line feed, and the part of the row to the left of the offset make up what stands before
the offset. -/
def OnRow (cs : List Char) (number offset : Nat) : Prop :=
  ∃ i left right, number = i + 1 ∧ (rows cs)[i]? = some (left ++ right) ∧
    cs.take offset = ((rows cs).take i).flatMap (· ++ ['\n']) ++ left ∧
    right <+: cs.drop offset

theorem rows_cons_newline (cs : List Char) : rows ('\n' :: cs) = [] :: rows cs := rfl

theorem rows_cons_of_ne {c : Char} (hc : c ≠ '\n') {row : List Char} {rest : List (List Char)}
    (h : rows cs = row :: rest) : rows (c :: cs) = (c :: row) :: rest := by
  rw [rows] at h ⊢
  simp [split, hc, h]

theorem exists_rows_eq_cons (cs : List Char) : ∃ row rest, rows cs = row :: rest :=
  List.exists_cons_of_ne_nil (split_ne_nil '\n' cs)

theorem rows_append_newline (cs ds : List Char) : rows (cs ++ '\n' :: ds) = rows cs ++ rows ds :=
  split_concat '\n' cs ds

/-- Nothing more of a text, or what starts with a line feed. -/
def LineEnds (tail : List Char) : Prop :=
  tail = [] ∨ ∃ more, tail = '\n' :: more

theorem exists_eq_row_append {row : List Char} {rest : List (List Char)}
    (h : rows cs = row :: rest) : ∃ tail, cs = row ++ tail ∧ '\n' ∉ row ∧ LineEnds tail := by
  have hjoin := intercalate_split '\n' cs
  rw [← rows, h] at hjoin
  have hrow : '\n' ∉ row := not_mem_of_mem_split (h ▸ List.mem_cons_self)
  cases rest with
  | nil => exact ⟨[], by simpa using hjoin.symm, hrow, .inl rfl⟩
  | cons next rest =>
    rw [List.intercalate_cons_cons, List.append_assoc] at hjoin
    exact ⟨_, hjoin.symm, hrow, .inr ⟨_, rfl⟩⟩

/-- The row between two parts of a text starts after the last line feed of the first part and ends
before the first line feed of the second. -/
theorem exists_row (before after : List Char) :
    ∃ left right, (rows (before ++ after))[before.count '\n']? = some (left ++ right) ∧
      before = ((rows (before ++ after)).take (before.count '\n')).flatMap (· ++ ['\n']) ++ left ∧
      right <+: after := by
  induction before with
  | nil =>
    obtain ⟨row, rest, hrows⟩ := exists_rows_eq_cons after
    obtain ⟨tail, htail, -⟩ := exists_eq_row_append hrows
    exact ⟨[], row, by simp [hrows], by simp, ⟨tail, htail.symm⟩⟩
  | cons c before ih =>
    obtain ⟨left, right, hrow, hbefore, hright⟩ := ih
    by_cases hc : c = '\n'
    · subst hc
      refine ⟨left, right, ?_, ?_, hright⟩
      · simpa [rows_cons_newline] using hrow
      · simpa [rows_cons_newline] using hbefore
    · obtain ⟨row, rest, hrows⟩ := exists_rows_eq_cons (before ++ after)
      rw [hrows] at hrow hbefore
      rw [List.cons_append, rows_cons_of_ne hc hrows, List.count_cons_of_ne hc]
      -- the character joins the first row, which may be the row in question
      cases hcount : before.count '\n' with
      | zero =>
        rw [hcount] at hrow hbefore
        refine ⟨c :: left, right, ?_, ?_, hright⟩
        · simpa using hrow
        · simpa using hbefore
      | succ i =>
        rw [hcount] at hrow hbefore
        refine ⟨left, right, ?_, ?_, hright⟩
        · simpa using hrow
        · simpa using hbefore

theorem onRow_count (cs : List Char) (offset : Nat) :
    OnRow cs ((cs.take offset).count '\n' + 1) offset := by
  obtain ⟨left, right, hrow, hbefore, hright⟩ := exists_row (cs.take offset) (cs.drop offset)
  rw [List.take_append_drop] at hrow hbefore
  exact ⟨_, left, right, rfl, hrow, hbefore, hright⟩

theorem allChars?_eq_some_iff {us : List (Option Char)} :
    allChars? us = some cs ↔ us = cs.map some := by
  constructor
  · intro h
    induction us generalizing cs with
    | nil =>
      cases h
      rfl
    | cons u us ih =>
      cases u with
      | none => cases h
      | some c =>
        obtain ⟨rest, hrest, rfl⟩ := Option.map_eq_some_iff.mp h
        rw [ih hrest, List.map_cons]
  · rintro rfl
    exact allChars?_map_some cs

theorem units_of_decode? {bytes : Bytes} {source : String} (h : decode? bytes = some source) :
    units bytes = source.toList.map some := by
  obtain ⟨cs, hcs, rfl⟩ := Option.map_eq_some_iff.mp h
  rw [String.toList_ofList]
  exact allChars?_eq_some_iff.mp hcs

end Text

namespace Php

variable {s : Source} {n : Node} {start stop : Nat}

theorem Source.lineAt_map_some (cs : List Char) (offset : Nat) :
    Source.lineAt (cs.map some) offset = (cs.take offset).count '\n' + 1 := by
  rw [lineAt, lineFeeds, ← List.map_take, List.countP_map, List.count]
  congr 2

theorem Node.Spans.onRow {cs : List Char} (h : n.Spans (cs.map some) start stop) :
    Text.OnRow cs n.line start := by
  rw [h.line_eq, Source.lineAt_map_some]
  exact Text.onRow_count cs start

/-- Every node below the root of a tree stands for a part of the source. -/
theorem exists_spans_of_at? {path : Path} (hpath : path ≠ []) (h : (parse s).at? path = some n) :
    ∃ start stop, n.Spans s start stop := by
  have hroot : SpanAll s (parse s).children 0 s.length := by
    rw [parse]
    cases hparse : parse? s with
    | none => exact .nil (Nat.zero_le _)
    | some tree => exact parse?_spans hparse
  induction path using List.reverseRecOn generalizing n with
  | nil => contradiction
  | append_singleton path i ih =>
    rw [Node.at?_concat] at h
    obtain ⟨parent, hparent, hchild⟩ := Option.bind_eq_some_iff.mp h
    have hmem := List.mem_of_getElem? hchild
    by_cases hnil : path = []
    · subst hnil
      cases hparent
      obtain ⟨a, b, -, -, hspans⟩ := hroot.exists_spans hmem
      exact ⟨a, b, hspans⟩
    · obtain ⟨a, b, hspans⟩ := ih hnil hparent
      obtain ⟨a', b', -, -, hspans⟩ := hspans.exists_child hmem
      exact ⟨a', b', hspans⟩

end Php

end Availability
