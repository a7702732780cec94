import Availability.Audit
import Mathlib.Data.List.TakeWhile
import Mathlib.Data.String.Basic
import Mathlib.Tactic.Common

/-!
# Stable sorting

Audits are sorted by file and line, and what ties keeps its order. Dropping items before sorting
and after it is the same, and what comes out depends only on the order in which items that tie went
in.
-/
namespace Availability

section MergeSort

variable {α : Type} {le : α → α → Bool}

/-- A list has at most one division into items that an item does not precede and items that it
does. -/
theorem division_unique {a : α} {before after before' after' : List α}
    (h : before ++ after = before' ++ after') (hbefore : ∀ b ∈ before, le a b = false)
    (hafter : ∀ b ∈ after, le a b = true) (hbefore' : ∀ b ∈ before', le a b = false)
    (hafter' : ∀ b ∈ after', le a b = true) : before = before' ∧ after = after' := by
  have divided {front back : List α} (hfront : ∀ b ∈ front, le a b = false)
      (hback : ∀ b ∈ back, le a b = true) : (front ++ back).takeWhile (!le a ·) = front := by
    have hpos : ∀ b ∈ front, (!le a b) = true := fun b hb => by simp [hfront b hb]
    rw [List.takeWhile_append_of_pos hpos]
    cases back with
    | nil => simp
    | cons b back => simp [hback b (by simp)]
  have hsame : before = before' := by
    rw [← divided hbefore hafter, h, divided hbefore' hafter']
  subst hsame
  exact ⟨rfl, List.append_cancel_left h⟩

/-- Whether sorting leaves the order of two items as it is. -/
def ties (le : α → α → Bool) (a b : α) : Bool :=
  le a b && le b a

theorem ties_iff {a b : α} : ties le a b = true ↔ le a b = true ∧ le b a = true := by
  simp [ties]

theorem ties_self (total : ∀ a b, le a b || le b a) (a : α) : ties le a a = true := by
  simpa [ties] using total a a

/-- Sorted lists are equal if items that tie stand in the same order in both. -/
theorem eq_of_filter_ties {l l' : List α} (total : ∀ a b, le a b || le b a)
    (hl : l.Pairwise (le · ·)) (hl' : l'.Pairwise (le · ·))
    (hties : ∀ a, l.filter (ties le a) = l'.filter (ties le a)) : l = l' := by
  have mem_of_mem {l l' : List α} (hties : ∀ a, l.filter (ties le a) = l'.filter (ties le a))
      {a : α} (ha : a ∈ l) : a ∈ l' := by
    have hfilter : a ∈ l.filter (ties le a) := List.mem_filter.mpr ⟨ha, ties_self total a⟩
    rw [hties] at hfilter
    exact List.mem_of_mem_filter hfilter
  induction l generalizing l' with
  | nil =>
    refine (List.eq_nil_iff_forall_not_mem.mpr fun a ha => ?_).symm
    exact List.not_mem_nil (mem_of_mem (fun a => (hties a).symm) ha)
  | cons a l ih =>
    cases l' with
    | nil => exact absurd (mem_of_mem hties List.mem_cons_self) List.not_mem_nil
    | cons b l' =>
      -- each head is among the items of the other list, so the heads tie
      have hab : le a b = true := by
        have hmem := mem_of_mem (fun a => (hties a).symm) List.mem_cons_self
        rcases List.mem_cons.mp hmem with rfl | hb
        · simpa using total b b
        · exact List.rel_of_pairwise_cons hl hb
      have hba : le b a = true := by
        rcases List.mem_cons.mp (mem_of_mem hties List.mem_cons_self) with rfl | ha
        · simpa using total a a
        · exact List.rel_of_pairwise_cons hl' ha
      have hheads := hties a
      rw [List.filter_cons_of_pos (ties_self total a),
        List.filter_cons_of_pos (ties_iff.mpr ⟨hab, hba⟩)] at hheads
      obtain rfl : a = b := (List.cons.inj hheads).1
      congr 1
      refine ih hl.of_cons hl'.of_cons fun c => ?_
      have htails := hties c
      by_cases hc : ties le c a = true
      · rw [List.filter_cons_of_pos hc, List.filter_cons_of_pos hc] at htails
        exact (List.cons.inj htails).2
      · rwa [List.filter_cons_of_neg hc, List.filter_cons_of_neg hc] at htails

variable (trans : ∀ a b c, le a b → le b c → le a c) (total : ∀ a b, le a b || le b a)

include trans total

/-- Sorting puts an item after those that it does not precede. -/
theorem mergeSort_cons_division (a : α) (l : List α) :
    ∃ before after, (a :: l).mergeSort le = before ++ a :: after ∧
      l.mergeSort le = before ++ after ∧ (∀ b ∈ before, le a b = false) ∧
        ∀ b ∈ after, le a b = true := by
  obtain ⟨before, after, hcons, hl, hbefore⟩ := List.mergeSort_cons trans total a l
  have hsorted := List.pairwise_mergeSort trans total (a :: l)
  rw [hcons] at hsorted
  have hafter := (List.pairwise_cons.mp (List.pairwise_append.mp hsorted).2.1).1
  exact ⟨before, after, hcons, hl, fun b hb => by simpa using hbefore b hb, hafter⟩

theorem mergeSort_filter (p : α → Bool) (l : List α) :
    (l.filter p).mergeSort le = (l.mergeSort le).filter p := by
  induction l with
  | nil => simp
  | cons a l ih =>
    obtain ⟨before, after, hcons, hl, hbefore, hafter⟩ := mergeSort_cons_division trans total a l
    rw [hl, List.filter_append] at ih
    rw [hcons, List.filter_append]
    by_cases ha : p a = true
    · rw [List.filter_cons_of_pos ha, List.filter_cons_of_pos ha]
      obtain ⟨before', after', hcons', hl', hbefore', hafter'⟩ :=
        mergeSort_cons_division trans total a (l.filter p)
      obtain ⟨rfl, rfl⟩ := division_unique (hl'.symm.trans ih) hbefore' hafter'
        (fun b hb => hbefore b (List.mem_of_mem_filter hb))
        (fun b hb => hafter b (List.mem_of_mem_filter hb))
      exact hcons'
    · rw [List.filter_cons_of_neg ha, List.filter_cons_of_neg ha, ih]

/-- Sorting is stable: items that tie keep their order. -/
theorem filter_mergeSort {p : α → Bool} (hp : ∀ a b, p a → p b → le a b) (l : List α) :
    (l.mergeSort le).filter p = l.filter p := by
  rw [← mergeSort_filter trans total]
  refine List.mergeSort_of_pairwise (List.pairwise_of_forall_mem_list fun a ha b hb => ?_)
  exact hp a b (List.mem_filter.mp ha).2 (List.mem_filter.mp hb).2

theorem filter_ties_mergeSort (a : α) (l : List α) :
    (l.mergeSort le).filter (ties le a) = l.filter (ties le a) := by
  refine filter_mergeSort trans total (fun b c hb hc => ?_) l
  exact trans b a c (ties_iff.mp hb).2 (ties_iff.mp hc).1

/-- The sorted list depends only on the order of items that tie. -/
theorem mergeSort_eq_of_ties {l l' : List α}
    (hties : ∀ a, l.filter (ties le a) = l'.filter (ties le a)) :
    l.mergeSort le = l'.mergeSort le := by
  refine eq_of_filter_ties total (List.pairwise_mergeSort trans total l)
    (List.pairwise_mergeSort trans total l') fun a => ?_
  rw [filter_ties_mergeSort trans total, filter_ties_mergeSort trans total, hties]

/-- Where only equal items tie, any order gives the same sorted list. -/
theorem mergeSort_eq_of_perm (antisymm : ∀ a b, le a b → le b a → a = b) {l l' : List α}
    (h : l.Perm l') : l.mergeSort le = l'.mergeSort le := by
  refine List.Perm.eq_of_pairwise (fun a b _ _ => antisymm a b)
    (List.pairwise_mergeSort trans total l) (List.pairwise_mergeSort trans total l') ?_
  exact (List.mergeSort_perm l le).trans (h.trans (List.mergeSort_perm l' le).symm)

end MergeSort

namespace Diagnostic

theorem before_iff {a b : Diagnostic} :
    a.before b = true ↔ a.file < b.file ∨ (a.file = b.file ∧ a.line ≤ b.line) := by
  simp [before]

theorem before_trans (a b c : Diagnostic) (hab : a.before b = true) (hbc : b.before c = true) :
    a.before c = true := by
  rw [before_iff] at *
  rcases hab with hab | ⟨hfile, hline⟩
  · rcases hbc with hbc | ⟨hfile', -⟩
    · exact .inl (hab.trans hbc)
    · exact .inl (hfile' ▸ hab)
  · rcases hbc with hbc | ⟨hfile', hline'⟩
    · exact .inl (hfile ▸ hbc)
    · exact .inr ⟨hfile.trans hfile', hline.trans hline'⟩

theorem before_total (a b : Diagnostic) : (a.before b || b.before a) = true := by
  rw [Bool.or_eq_true, before_iff, before_iff]
  rcases lt_trichotomy a.file b.file with hlt | heq | hgt
  · exact .inl (.inl hlt)
  · rcases Nat.le_total a.line b.line with hline | hline
    · exact .inl (.inr ⟨heq, hline⟩)
    · exact .inr (.inr ⟨heq.symm, hline⟩)
  · exact .inr (.inl hgt)

theorem ties_before_iff {a b : Diagnostic} :
    ties before a b = true ↔ a.file = b.file ∧ a.line = b.line := by
  rw [ties_iff, before_iff, before_iff]
  constructor
  · rintro ⟨hab | ⟨hfile, hab⟩, hba | ⟨hfile', hba⟩⟩
    · exact absurd hab hba.asymm
    · exact absurd (hfile' ▸ hab) (lt_irrefl _)
    · exact absurd (hfile ▸ hba) (lt_irrefl _)
    · exact ⟨hfile, Nat.le_antisymm hab hba⟩
  · rintro ⟨hfile, hline⟩
    exact ⟨.inr ⟨hfile, hline.le⟩, .inr ⟨hfile.symm, hline.ge⟩⟩

end Diagnostic

theorem Suppressed.ties_before_iff {s t : Suppressed} :
    ties (fun s t : Suppressed => s.diagnostic.before t.diagnostic) s t = true ↔
      s.diagnostic.file = t.diagnostic.file ∧ s.diagnostic.line = t.diagnostic.line :=
  Diagnostic.ties_before_iff

end Availability
