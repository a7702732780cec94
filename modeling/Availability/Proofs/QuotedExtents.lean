import Availability.Php.Grammar.Quoted
import Availability.Proofs.RuleExtents

/-!
# Quoted texts keep their nodes in place

A quoted text is read by cursors, part by part. Each part starts where the one before it ends, so
the nodes of the expressions in it stand inside of the text and in order.
-/
namespace Availability.Php.Grammar

open Rule

variable {s : Source} {c c' : Cursor} {k : Nat}

theorem lineBreak?_past {budget : Nat} (hc : c.Past s k) (h : lineBreak? budget c = some c') :
    c'.Past s k := by
  induction budget generalizing c with
  | zero => cases h
  | succ budget ih =>
    simp only [lineBreak?] at h
    split at h
    · cases h
      exact hc.advance _
    · split at h
      · cases h
      · exact ih ((hc.advance _).advance _) h

theorem afterBreak_past (hc : c.Past s k) : (afterBreak c).Past s k := by
  rw [afterBreak]
  split <;> exact hc.advance _

theorem closing?_past {label : List Char} (hc : c.Past s k) (h : closing? label c = some c') :
    c'.Past s k := by
  obtain ⟨n, -, rfl⟩ := Option.map_eq_some_iff.mp h
  exact hc.advance n

theorem closingLine?_past {label : List Char} (hc : c.Past s k)
    (h : closingLine? label c = some c') : c'.Past s k := by
  rw [closingLine?] at h
  split at h
  · cases h
  · exact closing?_past hc h

theorem plainLines_past (label : List Char) (hc : c.Past s k) : (plainLines label c).Past s k := by
  fun_induction plainLines label c with
  | case1 => exact hc
  | case2 c n hn next hleft ih => exact ih (hc.advance n)
  | case3 => exact hc

theorem emptyOrBody?_past {label : List Char} {place : Cursor ⊕ Cursor} (hc : c.Past s k)
    (h : emptyOrBody? label c = some place) : (place.elim id id).Past s k := by
  rw [emptyOrBody?] at h
  split at h
  · cases h
    exact closing?_past hc ‹_›
  · split at h
    · cases h
    · have hline := lineBreak?_past hc ‹_›
      split at h
      · cases h
        exact closing?_past hline ‹_›
      · cases h
        exact afterBreak_past hline

instance : Reads s [] integer := by
  refine @reads_choose _ _ _ fun p => ?_
  split <;> infer_instance

instance : Reads s [] plainIndex := by
  unfold plainIndex
  infer_instance

/-- Reading from a cursor on by a rule leads to a place after it. -/
theorem last_past {r : Rule} [Reads s [] r] {closedTexts : Nat} {nodes : List Node} {p : Position}
    (hc : c.Past s k) (h : r (.after c closedTexts) = some (nodes, p)) : p.last.Past s k := by
  obtain ⟨m, hm, hat⟩ := hc
  obtain ⟨b, -, hafter⟩ := Position.after_at hat closedTexts
  obtain ⟨a', b', hp, ha, -, -⟩ := Reads.leads_nil hafter h
  exact ⟨a', hm.trans ha, hp.last⟩

theorem plainVariable_past {t t' : Inside} (ht : t.cursor.Past s k)
    (h : plainVariable t = some t') : t'.cursor.Past s k := by
  rw [plainVariable] at h
  split at h
  · cases h
  · have hname := last_past ht ‹variableName _ = _›
    split at h
    · obtain ⟨⟨nodes, p⟩, hindex, hmap⟩ := Option.map_eq_some_iff.mp h
      cases hmap
      exact last_past hname hindex
    · split at h
      · split at h
        · cases h
        · cases h
          exact hname.advance _
      · cases h
        exact hname
    · cases h
      exact hname

section Parts

variable (r : Rules) {q : Quote} {t t' : Inside} {nodes : List Node}

theorem embedded_spans {opening : List Rule}
    [Reads s [] (seq (opening ++ [r.whole, symbol "\x7d"]))] (ht : t.cursor.At s k)
    (h : embedded r q opening t = some (nodes, t')) :
    ∃ k', t'.cursor.At s k' ∧ SpanAll s nodes k k' := by
  obtain ⟨b, -, hafter⟩ := Position.after_at ht t.closedTexts
  rw [embedded] at h
  split at h
  · cases h
  · obtain ⟨a', b', hp, -, -, hnodes⟩ := Reads.leads_nil hafter ‹_›
    split at h
    · cases h
    · cases h
      exact ⟨a', hp.last, hnodes⟩

variable [∀ goal, Reads s [] (r goal)]

instance : Reads s [] r.whole := inferInstanceAs (Reads s [] (r _))

theorem part_spans (ht : t.cursor.At s k) (h : part r q t = some (nodes, t')) :
    ∃ k', t'.cursor.At s k' ∧ SpanAll s nodes k k' := by
  have hplain (c : Cursor) (hc : c.Past s k) : ∃ k', c.At s k' ∧ SpanAll s [] k k' := by
    obtain ⟨k', hle, hat⟩ := hc
    exact ⟨k', hat, .nil hle⟩
  rw [part] at h
  split at h
  · cases h
    exact hplain _ (ht.past.advance _)
  · split at h
    · cases h
      exact hplain _ (ht.past.advance _)
    · have : Reads s [] (seq ([symbol "$", symbol "\x7b"] ++ [r.whole, symbol "\x7d"])) :=
        inferInstanceAs (Reads s [] (seq [_, _, _, _]))
      exact embedded_spans r ht h
    · obtain ⟨t'', hvariable, hmap⟩ := Option.map_eq_some_iff.mp h
      cases hmap
      exact hplain _ (plainVariable_past ht.past hvariable)
    · have : Reads s [] (seq ([symbol "\x7b"] ++ [r.whole, symbol "\x7d"])) :=
        inferInstanceAs (Reads s [] (seq [_, _, _]))
      exact embedded_spans r ht h
    · cases h

theorem parts_spans (ht : t.cursor.At s k) :
    ∃ k', (parts r q t).2.cursor.At s k' ∧ SpanAll s (parts r q t).1 k k' := by
  fun_induction parts r q t generalizing k with
  | case1 t => exact ⟨k, ht, .nil le_rfl⟩
  | case2 t nodes next hpart hleft more last hmore ih =>
    obtain ⟨k', hnext, hnodes⟩ := part_spans r ht hpart
    obtain ⟨k'', hlast, hrest⟩ := ih hnext
    rw [hmore] at hlast hrest
    exact ⟨k'', hlast, hnodes.append hrest⟩
  | case3 t => exact ⟨k, ht, .nil le_rfl⟩

end Parts

variable {p : Position} {nodes : List Node} {start a b : Nat}

/-- A quoted text as a node, up to the place where it ends. -/
theorem leads_quotedNode (hp : p.At s a b) (hstart : start ≤ a) (hc : c.At s k) (hle : b ≤ k)
    (hnodes : SpanAll s nodes b k) (kind : Kind) (closedTexts : Nat) :
    Leads s start a b (quotedNode kind p nodes c) (.after c closedTexts) :=
  .token hp hstart hc (hp.next.spans_upTo hc hle kind hnodes) closedTexts

variable (r : Rules) [∀ goal, Reads s [] (r goal)]

instance (q : Quote) (kind : Kind) (opening : Nat) : Reads s [] (quotedText r q kind opening) where
  leads hp hbefore h := by
    have hle := hp.next.le_length
    obtain ⟨k, hstop, hnodes⟩ :=
      parts_spans r (q := q) (t := ⟨_, false, _⟩) (hp.next.advance opening)
    have hk := hnodes.le
    have hlength := hstop.le_length
    simp only [quotedText] at h
    split at h
    · cases h
      exact leads_quotedNode hp hbefore.le (hstop.advance 1) (by omega)
        (hnodes.weaken (by omega) (by omega)) kind _
    · cases h

theorem leads_plainDocument {label : List Char} {p' : Position} (hp : p.At s a b)
    (hstart : start ≤ a) (hc : c.Past s b) (h : plainDocument label p c = some (nodes, p')) :
    Leads s start a b nodes p' := by
  rw [plainDocument] at h
  split at h
  · cases h
  · obtain ⟨stop, hstop, hmap⟩ := Option.map_eq_some_iff.mp h
    cases hmap
    have hpast : stop.Past s b := by
      split at hstop
      · cases hstop
      · cases hstop
        exact emptyOrBody?_past (hc.advance 1) ‹_›
      · exact closingLine?_past
          (plainLines_past label (emptyOrBody?_past (hc.advance 1) ‹_›)) hstop
    obtain ⟨k, hle, hat⟩ := hpast
    exact leads_quotedNode hp hstart hat hle (.nil hle) _ _

theorem leads_embeddingDocument {label : List Char} {p' : Position} (hp : p.At s a b)
    (hstart : start ≤ a) (hc : c.Past s b) (h : embeddingDocument r label p c = some (nodes, p')) :
    Leads s start a b nodes p' := by
  rw [embeddingDocument] at h
  have hopen : (if c.rest.head? == some (some '"') then c.advance 1 else c).Past s b := by
    split
    · exact hc.advance 1
    · exact hc
  split at h
  · cases h
  · cases h
    obtain ⟨k, hle, hat⟩ := emptyOrBody?_past hopen ‹_›
    exact leads_quotedNode hp hstart hat hle (.nil hle) _ _
  · obtain ⟨k, hle, hbody⟩ := emptyOrBody?_past hopen ‹_›
    rename_i body hplace
    obtain ⟨m, hlast, hnodes⟩ :=
      parts_spans r (q := .label label) (t := ⟨body, false, p.closedTexts⟩) hbody
    dsimp only at h
    split at h
    · cases h
    · obtain ⟨stop, hstop, hmap⟩ := Option.map_eq_some_iff.mp h
      cases hmap
      obtain ⟨e, hm, hat⟩ := closingLine?_past hlast.past hstop
      exact leads_quotedNode hp hstart hat (hle.trans (hnodes.le.trans hm))
        (hnodes.weaken hle hm) _ _

instance : Reads s [] (hereDocument r) where
  leads {p _ _ _ _ b} hp hbefore h := by
    unfold hereDocument at h
    extract_lets opening quoted place label c at h
    have hbeyond {c : Cursor} (hc : c.Past s b) (closedTexts : Nat) :
        (Position.after c closedTexts).next.Past s b := by
      obtain ⟨k, hle, hat⟩ := hc
      obtain ⟨b', hb', hafter⟩ := Position.after_at hat closedTexts
      exact ⟨b', hle.trans hb', hafter.next⟩
    have hopening : opening.next.Past s b := hbeyond (hp.next.past.advance 3) _
    have hplace : place.Past s b := by
      dsimp only [place]
      split
      · exact hbeyond (hopening.advance 1) _
      · exact hopening
    split at h
    · cases h
    · split at h
      · exact leads_plainDocument hp hbefore.le (hplace.advance _) h
      · exact leads_embeddingDocument r hp hbefore.le (hplace.advance _) h

end Availability.Php.Grammar
