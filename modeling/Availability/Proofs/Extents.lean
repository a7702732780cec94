import Availability.Php.Grammar.Rule
import Mathlib.Order.Nat

/-!
# The part of a source that a node stands for

A node of a tree stands for the units between two offsets of its source, and its line is the one
that the first of these units is on. Cursors and positions say where reading is in these terms.
-/
namespace Availability.Php

namespace Source

variable (s : Source)

/-- The number of the line that an offset is on. -/
def lineAt (offset : Nat) : Nat :=
  lineFeeds (s.take offset) + 1

/-- The units between two offsets. -/
def between (start stop : Nat) : Source :=
  (s.drop start).take (stop - start)

theorem lineAt_min_length (offset : Nat) : s.lineAt (min offset s.length) = s.lineAt offset := by
  rw [lineAt, lineAt, ← List.take_eq_take_min]

theorem lineAt_add (offset n : Nat) :
    s.lineAt (offset + n) = s.lineAt offset + lineFeeds ((s.drop offset).take n) := by
  simp only [lineAt, List.take_add, lineFeeds, List.countP_append]
  omega

theorem between_min_length (start n : Nat) :
    s.between start (min (start + n) s.length) = (s.drop start).take n := by
  rw [between, List.take_eq_take_iff, List.length_drop]
  omega

end Source

mutual

/-- A node that stands for the units between two offsets, with its children inside and in order. Its
line is that of its first unit. If it is not known by the text of its units, it starts where its
first child does. -/
inductive Node.Spans (s : Source) : Node → Nat → Nat → Prop
  | spelled {kind : Kind} {role : Role} {children : List Node} {start stop : Nat} :
    start ≤ stop → stop ≤ s.length → SpanAll s children start stop →
    Node.Spans s (.mk kind role (s.lineAt start) (Source.text? (s.between start stop)) children)
      start stop
  | around {kind : Kind} {role : Role} {first : Node} {rest : List Node} {start mid stop : Nat} :
    Node.Spans s first start mid → SpanAll s rest mid stop →
    Node.Spans s (.mk kind role (s.lineAt start) none (first :: rest)) start stop

/-- Nodes that stand one after another for units between two offsets. -/
inductive SpanAll (s : Source) : List Node → Nat → Nat → Prop
  | nil {start stop : Nat} : start ≤ stop → SpanAll s [] start stop
  | cons {n : Node} {rest : List Node} {start a b stop : Nat} :
    start ≤ a → Node.Spans s n a b → SpanAll s rest b stop → SpanAll s (n :: rest) start stop

end

variable {s : Source} {n : Node} {nodes : List Node} {start stop : Nat}

theorem Node.Spans.line_eq (h : n.Spans s start stop) : n.line = s.lineAt start := by
  cases h <;> rfl

theorem Node.Spans.withRole (h : n.Spans s start stop) (role : Role) :
    (n.withRole role).Spans s start stop := by
  cases h with
  | spelled hle hlength hchildren => exact .spelled hle hlength hchildren
  | around hfirst hrest => exact .around hfirst hrest

mutual

theorem Node.Spans.le {n : Node} {start stop : Nat} (h : n.Spans s start stop) : start ≤ stop := by
  cases h with
  | spelled hle hlength hchildren => exact hle
  | around hfirst hrest => exact hfirst.le.trans hrest.le

theorem SpanAll.le {nodes : List Node} {start stop : Nat} (h : SpanAll s nodes start stop) :
    start ≤ stop := by
  cases h with
  | nil hle => exact hle
  | cons hle hnode hrest => exact hle.trans (hnode.le.trans hrest.le)

end

namespace SpanAll

theorem weaken {start' stop' : Nat} (h : SpanAll s nodes start stop) (hstart : start' ≤ start)
    (hstop : stop ≤ stop') : SpanAll s nodes start' stop' := by
  induction nodes generalizing start start' with
  | nil =>
    cases h with
    | nil hle => exact .nil (by omega)
  | cons n rest ih =>
    cases h with
    | cons hle hnode hrest => exact .cons (by omega) hnode (ih hrest le_rfl)

theorem append {others : List Node} {mid : Nat} (h : SpanAll s nodes start mid)
    (hothers : SpanAll s others mid stop) : SpanAll s (nodes ++ others) start stop := by
  induction nodes generalizing start with
  | nil => exact hothers.weaken h.le le_rfl
  | cons n rest ih =>
    cases h with
    | cons hle hnode hrest => exact .cons hle hnode (ih hrest)

theorem exists_of_append {others : List Node} (h : SpanAll s (nodes ++ others) start stop) :
    ∃ mid, SpanAll s nodes start mid ∧ SpanAll s others mid stop := by
  induction nodes generalizing start with
  | nil => exact ⟨start, .nil le_rfl, h⟩
  | cons n rest ih =>
    cases h with
    | cons hle hnode hrest =>
      obtain ⟨mid, hbefore, hafter⟩ := ih hrest
      exact ⟨mid, .cons hle hnode hbefore, hafter⟩

theorem concat {mid : Nat} (h : SpanAll s nodes start mid) (hnode : n.Spans s mid stop) :
    SpanAll s (nodes ++ [n]) start stop :=
  h.append (.cons le_rfl hnode (.nil le_rfl))

theorem exists_spans (h : SpanAll s nodes start stop) (hn : n ∈ nodes) :
    ∃ a b, start ≤ a ∧ b ≤ stop ∧ n.Spans s a b := by
  induction nodes generalizing start with
  | nil => cases hn
  | cons m rest ih =>
    cases h with
    | @cons _ _ _ a b _ hle hnode hrest =>
      rcases List.mem_cons.mp hn with rfl | hn
      · exact ⟨a, b, hle, hrest.le, hnode⟩
      · obtain ⟨a', b', hstart, hstop, hspans⟩ := ih hrest hn
        exact ⟨a', b', hle.trans (hnode.le.trans hstart), hstop, hspans⟩

theorem mark (h : SpanAll s nodes start stop) (role : Role) :
    SpanAll s (Rule.mark role nodes) start stop := by
  induction nodes generalizing start with
  | nil => exact h
  | cons n rest ih =>
    cases h with
    | cons hle hnode hrest =>
      refine .cons hle ?_ (ih hrest)
      by_cases hextra : n.isExtra = true
      · simpa only [hextra, if_true] using hnode
      · simpa only [hextra, if_false, Bool.false_eq_true] using hnode.withRole role

theorem wrap (h : SpanAll s nodes start stop) (kind : Kind) :
    SpanAll s (Rule.wrap kind nodes) start stop := by
  rw [Rule.wrap]
  rcases hinner : nodes.dropWhile Node.isExtra with _ | ⟨first, rest⟩
  · exact h
  · rw [← nodes.takeWhile_append_dropWhile (p := Node.isExtra), hinner] at h
    obtain ⟨mid, houter, hrest⟩ := h.exists_of_append
    cases hrest with
    | cons hle hfirst hrest =>
      dsimp only
      rw [hfirst.line_eq]
      exact (houter.weaken le_rfl hle).concat (.around hfirst hrest)

end SpanAll

/-- The nodes inside of a node stand for parts of its own. -/
theorem Node.Spans.exists_child (h : n.Spans s start stop) {child : Node}
    (hchild : child ∈ n.children) : ∃ a b, start ≤ a ∧ b ≤ stop ∧ child.Spans s a b := by
  cases h with
  | spelled hle hlength hchildren => exact hchildren.exists_spans hchild
  | around hfirst hrest => exact (SpanAll.cons le_rfl hfirst hrest).exists_spans hchild

/-! Where reading is. -/

/-- A cursor at an offset of a source. -/
structure Cursor.At (c : Cursor) (s : Source) (offset : Nat) : Prop where
  le_length : offset ≤ s.length
  rest : c.rest = s.drop offset
  left : c.left = s.length - offset
  line : c.line = s.lineAt offset

/-- A cursor at or after an offset of a source. -/
def Cursor.Past (c : Cursor) (s : Source) (offset : Nat) : Prop :=
  ∃ k, offset ≤ k ∧ c.At s k

namespace Cursor

variable {c c' : Cursor} {k k' : Nat}

theorem At.past (h : c.At s k) : c.Past s k := ⟨k, le_rfl, h⟩

theorem At.unique (h : c.At s k) (h' : c.At s k') : k = k' := by
  have hle := h.le_length
  have hle' := h'.le_length
  have hleft := h.left.symm.trans h'.left
  omega

theorem At.advance (h : c.At s k) (n : Nat) : (c.advance n).At s (min (k + n) s.length) := by
  have hle := h.le_length
  refine ⟨Nat.min_le_right _ _, ?_, ?_, ?_⟩
  · rw [Cursor.advance, h.rest, List.drop_drop]
    rcases Nat.le_total (k + n) s.length with hn | hn
    · rw [Nat.min_eq_left hn]
    · rw [Nat.min_eq_right hn, List.drop_length, List.drop_eq_nil_of_le hn]
  · simp only [Cursor.advance, h.rest, h.left, List.length_take, List.length_drop]
    omega
  · rw [Source.lineAt_min_length, Source.lineAt_add, Cursor.advance, h.line, h.rest]

theorem Past.advance (h : c.Past s k) (n : Nat) : (c.advance n).Past s k := by
  obtain ⟨m, hm, hat⟩ := h
  have hle := hat.le_length
  exact ⟨_, by omega, hat.advance n⟩

theorem At.upTo_eq (h : c.At s k) (h' : c'.At s k') : c.upTo c' = s.between k k' := by
  have hle := h.le_length
  have hle' := h'.le_length
  rw [Cursor.upTo, h.rest, h.left, h'.left, Source.between]
  congr 1
  omega

/-- The units at a cursor as a node. -/
theorem At.spans_take (h : c.At s k) (kind : Kind) (n : Nat) :
    (Node.mk kind .none c.line (Source.text? (c.rest.take n)) []).Spans s k
      (min (k + n) s.length) := by
  have hle := h.le_length
  rw [h.line, h.rest, ← Source.between_min_length]
  exact .spelled (by omega) (Nat.min_le_right _ _) (.nil (by omega))

/-- The units between two cursors as a node. -/
theorem At.spans_upTo (h : c.At s k) (h' : c'.At s k') (hle : k ≤ k') (kind : Kind)
    (hnodes : SpanAll s nodes k k') :
    (Node.mk kind .none c.line (Source.text? (c.upTo c')) nodes).Spans s k k' := by
  rw [h.line, h.upTo_eq h']
  exact .spelled hle h'.le_length hnodes

end Cursor

/-- A position whose last token ends at an offset of a source and whose next token starts at
another, with what stands between. -/
structure Position.At (p : Position) (s : Source) (a b : Nat) : Prop where
  last : p.last.At s a
  next : p.next.At s b
  gap : SpanAll s p.gap a b
  branch : ∀ nodes c closedTexts, p.branch = some (nodes, c, closedTexts) →
    ∃ k, b ≤ k ∧ c.At s k ∧ SpanAll s nodes a k

namespace Position

variable {c : Cursor} {a k : Nat}

theorem skipGap_spans (budget : Nat) (gap : List Node) (ends : Bool) (hc : c.At s k)
    (hgap : SpanAll s gap.reverse a k) :
    ∃ b, (skipGap budget c gap ends).2.2.At s b ∧ SpanAll s (skipGap budget c gap ends).1 a b := by
  induction budget generalizing c k gap ends with
  | zero => exact ⟨k, hc, hgap⟩
  | succ budget ih =>
    have hblanks := hc.advance (c.rest.runLength Source.isBlank)
    have hwide : SpanAll s gap.reverse a (min (k + c.rest.runLength Source.isBlank) s.length) := by
      have hle := hc.le_length
      exact hgap.weaken le_rfl (by omega)
    -- a comment or a closed section is one more node
    have hpass (kind : Kind) (ends : Bool) (n : Nat) :=
      ih (.mk kind .none _ _ [] :: gap) ends (hblanks.advance n)
        (by rw [List.reverse_cons]; exact hwide.concat (hblanks.spans_take kind n))
    rw [skipGap]
    dsimp only
    split
    · exact hpass _ _ _
    · split
      · exact hpass _ _ _
      · exact ⟨_, hblanks, hwide⟩

theorem after_at (hc : c.At s k) (closedTexts : Nat) :
    ∃ b, k ≤ b ∧ (Position.after c closedTexts).At s k b := by
  obtain ⟨b, hnext, hgap⟩ := skipGap_spans (c.left + 1) [] false hc (.nil le_rfl)
  exact ⟨b, hgap.le, hc, hnext, hgap, fun _ _ _ h => by cases h⟩

end Position

end Availability.Php
