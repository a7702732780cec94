import Availability.Php.Grammar.Function
import Availability.Proofs.Extents

/-!
# Rules keep nodes in place

`Reads s before r` says that a rule continues nodes that have been read before: whenever these stand
in the source up to the position, the nodes that the rule yields stand there up to the position
after it. Every combinator of the grammar preserves this, so that for a rule that is put together
from others nothing is left to show.
-/
namespace Availability.Php.Rule

variable {s : Source} {before nodes : List Node} {p p' : Position} {start a b : Nat} {r : Rule}

/-- Nodes and the position after them, where a position from `a` to `b` has led to. -/
def Leads (s : Source) (start a b : Nat) (nodes : List Node) (p' : Position) : Prop :=
  ∃ a' b', p'.At s a' b' ∧ a ≤ a' ∧ b ≤ b' ∧ SpanAll s nodes start a'

/-- A rule whose nodes take the place of nodes before it and of what it reads. -/
class Reads (s : Source) (before : List Node) (r : Rule) : Prop where
  leads {p p' : Position} {nodes : List Node} {start a b : Nat} :
    p.At s a b → SpanAll s before start a → r p = some (nodes, p') → Leads s start a b nodes p'

/-- A rule that reads at least one token. -/
class Passes (s : Source) (r : Rule) : Prop where
  past {p p' : Position} {nodes : List Node} {a b : Nat} :
    p.At s a b → r p = some (nodes, p') → ∃ a' b', p'.At s a' b' ∧ b ≤ a'

theorem Leads.refl (hp : p.At s a b) (hnodes : SpanAll s nodes start a) :
    Leads s start a b nodes p :=
  ⟨a, b, hp, le_rfl, le_rfl, hnodes⟩

theorem Leads.weaken {start' a' b' : Nat} (h : Leads s start' a' b' nodes p)
    (hstart : start ≤ start') (ha : a ≤ a') (hb : b ≤ b') : Leads s start a b nodes p := by
  obtain ⟨a'', b'', hp, ha', hb', hnodes⟩ := h
  exact ⟨a'', b'', hp, ha.trans ha', hb.trans hb', hnodes.weaken hstart le_rfl⟩

theorem Leads.append {more : List Node} (h : Leads s start a b nodes p)
    (hmore : ∀ a' b', p.At s a' b' → Leads s a' a' b' more p') :
    Leads s start a b (nodes ++ more) p' := by
  obtain ⟨a', b', hp, ha, hb, hnodes⟩ := h
  obtain ⟨a'', b'', hp', ha', hb', hmore⟩ := hmore a' b' hp
  exact ⟨a'', b'', hp', ha.trans ha', hb.trans hb', hnodes.append hmore⟩

theorem Leads.mark (h : Leads s start a b nodes p) (role : Role) :
    Leads s start a b (Rule.mark role nodes) p := by
  obtain ⟨a', b', hp, ha, hb, hnodes⟩ := h
  exact ⟨a', b', hp, ha, hb, hnodes.mark role⟩

theorem Leads.wrap (h : Leads s start a b nodes p) (kind : Kind) :
    Leads s start a b (Rule.wrap kind nodes) p := by
  obtain ⟨a', b', hp, ha, hb, hnodes⟩ := h
  exact ⟨a', b', hp, ha, hb, hnodes.wrap kind⟩

/-- A node after what stands before the next token, up to a cursor. -/
theorem Leads.token {c : Cursor} {n : Node} {k : Nat} (hp : p.At s a b) (hstart : start ≤ a)
    (hc : c.At s k) (hn : n.Spans s b k) (closedTexts : Nat) :
    Leads s start a b (p.gap ++ [n]) (.after c closedTexts) := by
  obtain ⟨b', hb, hafter⟩ := Position.after_at hc closedTexts
  have hab := hp.gap.le
  have hbk := hn.le
  exact ⟨k, b', hafter, by omega, by omega, (hp.gap.weaken hstart le_rfl).concat hn⟩

theorem Reads.leads_nil [Reads s [] r] (hp : p.At s a b) (h : r p = some (nodes, p')) :
    Leads s a a b nodes p' :=
  leads hp (.nil le_rfl) h

theorem leads_take (kind : Kind) (n : Nat) (hp : p.At s a b) (hstart : start ≤ a) :
    Leads s start a b
      (p.gap ++ [.mk kind .none p.next.line (Source.text? (p.next.rest.take n)) []])
      (p.beyond n) :=
  .token hp hstart (hp.next.advance n) (hp.next.spans_take kind n) p.closedTexts

instance : Reads s before fail where
  leads _ _ h := by cases h

instance : Reads s [] nothing where
  leads hp hbefore h := by
    cases h
    exact .refl hp hbefore

instance (kind : Kind) (n : Nat) : Reads s [] (take kind n) where
  leads hp hbefore h := by
    cases h
    exact leads_take kind n hp hbefore.le

instance (kind : Kind) (n : Nat) : Passes s (take kind n) where
  past hp h := by
    cases h
    obtain ⟨b', -, hafter⟩ := Position.after_at (hp.next.advance n) _
    have hle := hp.next.le_length
    exact ⟨_, b', hafter, by omega⟩

instance (kind : Kind) : Reads s [] (takeAs kind) where
  leads hp hbefore h := Reads.leads (r := take kind _) hp hbefore h

instance (kind : Kind) : Passes s (takeAs kind) where
  past hp h := Passes.past (r := take kind _) hp h

section Sequences

variable {rs : List Rule}

instance : Reads s [] (seq []) :=
  inferInstanceAs (Reads s [] nothing)

theorem seq_cons_eq_some (h : seq (r :: rs) p = some (nodes, p')) :
    ∃ first mid more, r p = some (first, mid) ∧ seq rs mid = some (more, p') ∧
      nodes = first ++ more := by
  simp only [seq] at h
  split at h
  · cases h
  · split at h
    · cases h
    · cases h
      exact ⟨_, _, _, ‹_›, ‹_›, rfl⟩

instance [Reads s before r] [Reads s [] (seq rs)] : Reads s before (seq (r :: rs)) where
  leads hp hbefore h := by
    obtain ⟨first, mid, more, hfirst, hmore, rfl⟩ := seq_cons_eq_some h
    exact (Reads.leads hp hbefore hfirst).append fun a' b' hmid => Reads.leads_nil hmid hmore

instance [Passes s r] [Reads s [] (seq rs)] : Passes s (seq (r :: rs)) where
  past hp h := by
    obtain ⟨first, mid, more, hfirst, hmore, rfl⟩ := seq_cons_eq_some h
    obtain ⟨a', b', hmid, hb⟩ := Passes.past hp hfirst
    obtain ⟨a'', b'', hp', ha, -, -⟩ := Reads.leads_nil hmid hmore
    exact ⟨a'', b'', hp', hb.trans ha⟩

instance [Reads s [] r] [Passes s (seq rs)] : Passes s (seq (r :: rs)) where
  past hp h := by
    obtain ⟨first, mid, more, hfirst, hmore, rfl⟩ := seq_cons_eq_some h
    obtain ⟨a', b', hmid, -, hb, -⟩ := Reads.leads_nil hp hfirst
    obtain ⟨a'', b'', hp', hb'⟩ := Passes.past hmid hmore
    exact ⟨a'', b'', hp', hb.trans hb'⟩

end Sequences

section Choices

variable {applies : Position → Bool} {otherwise : Rule} {rest : List ((Position → Bool) × Rule)}

instance reads_choose {f : Position → Rule} [∀ p, Reads s before (f p)] :
    Reads s before (choose f) where
  leads {p _ _ _ _ _} hp hbefore h := Reads.leads (r := f p) hp hbefore h

instance [Reads s before otherwise] : Reads s before (firstOf [] otherwise) :=
  inferInstanceAs (Reads s before otherwise)

instance [Reads s before r] [Reads s before (firstOf rest otherwise)] :
    Reads s before (firstOf ((applies, r) :: rest) otherwise) where
  leads hp hbefore h := by
    simp only [firstOf] at h
    split at h
    · exact Reads.leads hp hbefore h
    · exact Reads.leads hp hbefore h

instance [Reads s [] r] : Reads s [] (when applies r) :=
  inferInstanceAs (Reads s [] (firstOf [(applies, r)] nothing))

instance [Reads s before r] : Reads s before (only applies r) :=
  inferInstanceAs (Reads s before (firstOf [(applies, r)] fail))

instance [Passes s r] : Passes s (only applies r) where
  past hp h := by
    simp only [only, firstOf] at h
    split at h
    · exact Passes.past hp h
    · cases h

instance {condition : Prop} [Decidable condition] {r' : Rule} [Reads s before r]
    [Reads s before r'] : Reads s before (if condition then r else r') := by
  split <;> infer_instance

end Choices

section Repetitions

variable {applies : Position → Bool} {next? : List Node → Position → Option Rule}

/-- Each repetition goes on from where the last one has ended. -/
theorem leads_repeatWhile [Reads s [] r] (hp : p.At s a b)
    (h : repeatWhile applies r p = some (nodes, p')) : Leads s a a b nodes p' := by
  fun_induction repeatWhile applies r p generalizing a b nodes p' with
  | case1 => cases h
  | case2 => cases h
  | case3 p happlies first mid hfirst hleft more rest hmore ih =>
    cases h
    exact (Reads.leads_nil hp hfirst).append fun a' b' hmid => ih hmid hmore
  | case4 => cases h
  | case5 =>
    cases h
    exact .refl hp (.nil le_rfl)

instance [Reads s [] r] : Reads s [] (repeatWhile applies r) where
  leads hp hbefore h := (leads_repeatWhile hp h).weaken hbefore.le le_rfl le_rfl

/-- Each continuation takes the nodes so far along. -/
theorem reads_extend (hnext : ∀ nodes p r, next? nodes p = some r → Reads s nodes r) :
    Reads s nodes (extend next? nodes) := by
  refine ⟨fun {p p' more start a b} hp hnodes h => ?_⟩
  fun_induction extend next? nodes p generalizing a b more p' with
  | case1 =>
    cases h
    exact .refl hp hnodes
  | case2 => cases h
  | case3 nodes p r hr read mid hread hleft ih =>
    have := hnext nodes p r hr
    obtain ⟨a', b', hmid, ha, hb, hread⟩ := Reads.leads hp hnodes hread
    exact (ih hmid hread h).weaken le_rfl ha hb
  | case4 => cases h

end Repetitions

section Continuations

variable {next : List Node → Rule}

theorem andThen_eq_some (h : andThen r next p = some (nodes, p')) :
    ∃ read mid, r p = some (read, mid) ∧ next read mid = some (nodes, p') := by
  rw [andThen] at h
  split at h
  · cases h
  · exact ⟨_, _, ‹_›, h⟩

instance [Reads s before r] [∀ nodes, Reads s nodes (next nodes)] :
    Reads s before (andThen r next) where
  leads hp hbefore h := by
    obtain ⟨read, mid, hread, hnext⟩ := andThen_eq_some h
    obtain ⟨a', b', hmid, ha, hb, hnodes⟩ := Reads.leads hp hbefore hread
    exact (Reads.leads hmid hnodes hnext).weaken le_rfl ha hb

-- what follows can also join the nodes before to those of the rule
instance (priority := low) [Reads s [] r] [∀ nodes, Reads s (before ++ nodes) (next nodes)] :
    Reads s before (andThen r next) where
  leads hp hbefore h := by
    obtain ⟨read, mid, hread, hnext⟩ := andThen_eq_some h
    obtain ⟨a', b', hmid, ha, hb, hnodes⟩ := Reads.leads_nil hp hread
    exact (Reads.leads hmid (hbefore.append hnodes) hnext).weaken le_rfl ha hb

instance : Reads s nodes (given nodes) where
  leads hp hbefore h := by
    cases h
    exact .refl hp hbefore

instance (role : Role) : Reads s nodes (given (mark role nodes)) where
  leads hp hbefore h := by
    cases h
    exact .refl hp (hbefore.mark role)

instance (kind : Kind) : Reads s nodes (given (wrap kind nodes)) where
  leads hp hbefore h := by
    cases h
    exact .refl hp (hbefore.wrap kind)

instance {accepts : List Node → Bool} [Reads s before r] : Reads s before (such accepts r) :=
  inferInstanceAs (Reads s before (andThen r _))

end Continuations

section Nodes

theorem mapNodes_eq_some {f : List Node → List Node} (h : mapNodes f r p = some (nodes, p')) :
    ∃ read, r p = some (read, p') ∧ nodes = f read := by
  obtain ⟨⟨read, rest⟩, hread, hmap⟩ := Option.map_eq_some_iff.mp h
  cases hmap
  exact ⟨read, hread, rfl⟩

instance (kind : Kind) [Reads s before r] : Reads s before (node kind r) where
  leads hp hbefore h := by
    obtain ⟨read, hread, rfl⟩ := mapNodes_eq_some h
    exact (Reads.leads hp hbefore hread).wrap kind

instance (role : Role) [Reads s before r] : Reads s before (field role r) where
  leads hp hbefore h := by
    obtain ⟨read, hread, rfl⟩ := mapNodes_eq_some h
    exact (Reads.leads hp hbefore hread).mark role

/-- What a rule reads becomes one node with the nodes before it. -/
theorem leads_following (kind : Kind) [Reads s [] r] (hp : p.At s a b)
    (hbefore : SpanAll s before start a)
    (h : Grammar.following kind before r p = some (nodes, p')) : Leads s start a b nodes p' := by
  obtain ⟨read, hread, rfl⟩ := mapNodes_eq_some h
  obtain ⟨a', b', hp', ha, hb, hnodes⟩ := Reads.leads_nil hp hread
  exact Leads.wrap ⟨a', b', hp', ha, hb, hbefore.append hnodes⟩ kind

instance (kind : Kind) [Reads s [] r] : Reads s before (Grammar.following kind before r) where
  leads hp hbefore h := leads_following kind hp hbefore h

instance (kind : Kind) (role : Role) [Reads s [] r] :
    Reads s before (Grammar.following kind (mark role before) r) where
  leads hp hbefore h := leads_following kind hp (hbefore.mark role) h

instance (kind : Kind) [Passes s r] : Reads s [] (spelled kind r) where
  leads {p _ _ start a b} hp hbefore h := by
    obtain ⟨⟨read, rest⟩, hread, hmap⟩ := Option.map_eq_some_iff.mp h
    cases hmap
    obtain ⟨a', b', hrest, hb⟩ := Passes.past hp hread
    have hab := hp.gap.le
    have hab' := hrest.gap.le
    have hspans := hp.next.spans_upTo hrest.last hb kind (.nil hb)
    exact ⟨a', b', hrest, by omega, by omega, (hp.gap.weaken hbefore.le le_rfl).concat hspans⟩

end Nodes

section Tokens

variable (text : String) (kind : Kind) (ends : Bool) {item : Rule}

instance : Reads s [] (symbol text) := inferInstanceAs (Reads s [] (only _ _))

instance : Passes s (symbol text) := inferInstanceAs (Passes s (only _ _))

instance : Reads s [] (keyword text) := inferInstanceAs (Reads s [] (only _ _))

instance : Passes s (keyword text) := inferInstanceAs (Passes s (only _ _))

instance : Reads s [] (symbolAs text kind) := inferInstanceAs (Reads s [] (only _ _))

instance : Reads s [] name := inferInstanceAs (Reads s [] (only _ _))

instance : Passes s name := inferInstanceAs (Passes s (only _ _))

instance : Reads s [] variableName := inferInstanceAs (Reads s [] (spelled _ (seq [_, _])))

instance : Reads s [] semicolon := inferInstanceAs (Reads s [] (firstOf [(_, nothing)] (symbol _)))

instance : Reads s [] (optional text) := inferInstanceAs (Reads s [] (when _ (symbol _)))

instance [Reads s [] item] : Reads s [] (commaSeparated ends item) := by
  unfold commaSeparated
  infer_instance

instance [Reads s [] item] : Reads s [] (someUntil text item) := by
  unfold someUntil
  infer_instance

instance [Reads s [] item] : Reads s [] (listUntil text item) := by
  unfold listUntil
  infer_instance

end Tokens

end Availability.Php.Rule
