import Availability.Proofs.ClassNames
import Availability.Proofs.Lineage
import Availability.Proofs.RaisedMinimum
import Availability.Proofs.TableLookup

/-!
# The nearest class decides

A method is looked up in the classes that its receiver may have and then in their ancestors, in each
class once. The first class that has the method by the symbol table decides about a call, and
whatever the table says of the classes behind it does not count. For a receiver of one class these
are the class, its parent, its grandparent and so on.
-/
namespace Availability

namespace SymbolTable

variable {table : SymbolTable} {method : String} {order : List String}

/-- Whether a class has a method does not depend on the case in which the class is written. -/
theorem find?_methodKey_eq_none_congr {x y : String} (h : Text.lower x = Text.lower y) :
    table.find? (Candidate.methodKey x method) = none ↔
      table.find? (Candidate.methodKey y method) = none := by
  simp only [find?_eq_none_iff, Candidate.methodKey, Text.lower_append, h]

/-- `x` is the first class of an order that has a method, and this is found under it. -/
def FirstWith (table : SymbolTable) (method : String) (order : List String) (x : String)
    (found : String × SymbolEntry) : Prop :=
  ∃ before after, order = before ++ x :: after ∧
    table.find? (Candidate.methodKey x method) = some found ∧
      ∀ y ∈ before, table.find? (Candidate.methodKey y method) = none

theorem exists_firstWith_iff {found : String × SymbolEntry} :
    (∃ x, table.FirstWith method order x found) ↔
      (order.map (Candidate.methodKey · method)).findSome? table.find? = some found := by
  rw [List.findSome?_map, List.findSome?_eq_some_iff]
  constructor
  · rintro ⟨x, before, after, horder, hfound, hnone⟩
    exact ⟨before, x, after, horder, hfound, hnone⟩
  · rintro ⟨before, x, after, horder, hfound, hnone⟩
    exact ⟨x, before, after, horder, hfound, hnone⟩

/-- What is found depends only on the classes up to one that has the method. -/
theorem findSome?_append_congr {other : SymbolTable} {before after : List String} {x : String}
    (hx : table.find? (Candidate.methodKey x method) ≠ none)
    (hsame : ∀ y ∈ before ++ [x], other.find? (Candidate.methodKey y method) =
      table.find? (Candidate.methodKey y method)) :
    ((before ++ x :: after).map (Candidate.methodKey · method)).findSome? other.find? =
      ((before ++ x :: after).map (Candidate.methodKey · method)).findSome? table.find? := by
  obtain ⟨found, hfound⟩ := Option.ne_none_iff_exists'.mp hx
  have hother := hsame x (by simp)
  rw [hfound] at hother
  induction before with
  | nil => simp [hfound, hother]
  | cons y before ih =>
    rw [List.cons_append, List.map_cons, List.findSome?_cons, List.findSome?_cons,
      hsame y (by simp), ih fun z hz => hsame z (List.mem_cons_of_mem y hz)]

end SymbolTable

/-- The class some generations above a class: itself, its parent, its grandparent and so on. -/
def generation? (above : String → Option String) (name : String) : Nat → Option String
  | 0 => some name
  | k + 1 => (generation? above name k).bind above

namespace Lineage

variable {above : String → Option String} {name x : String} {line : List String} {k : Nat}

/-- A line goes up one generation with every class. -/
theorem generation?_of_getElem? (h : Lineage above name line)
    (hx : (name :: line)[k]? = some x) : generation? above name k = some x := by
  induction k generalizing x with
  | zero => simpa [generation?] using hx
  | succ k ih =>
    obtain ⟨hlt, rfl⟩ := List.getElem?_eq_some_iff.mp hx
    have hbelow := ih (List.getElem?_eq_getElem (Nat.lt_of_succ_lt hlt))
    rw [generation?, hbelow, Option.bind_some]
    exact List.isChain_iff_getElem.mp h.parents k hlt

/-- However far up a class is, the line has come to it by then, in whatever case. -/
theorem exists_getElem? (hcongr : ∀ x y, Text.lower x = Text.lower y → above x = above y)
    (h : Lineage above name line) (hx : generation? above name k = some x) :
    ∃ j ≤ k, ∃ x', (name :: line)[j]? = some x' ∧ Text.lower x' = Text.lower x := by
  induction k generalizing x with
  | zero =>
    obtain rfl : name = x := by simpa [generation?] using hx
    exact ⟨0, Nat.le_refl 0, name, rfl, rfl⟩
  | succ k ih =>
    obtain ⟨y, hy, habove⟩ := Option.bind_eq_some_iff.mp hx
    obtain ⟨j, hj, y', hy', hlower⟩ := ih hy
    obtain ⟨hlt, rfl⟩ := List.getElem?_eq_some_iff.mp hy'
    rw [← hcongr _ _ hlower] at habove
    by_cases hlast : j + 1 < (name :: line).length
    · have hparent := List.isChain_iff_getElem.mp h.parents j hlast
      rw [habove, Option.some.injEq] at hparent
      exact ⟨j + 1, by omega, x, by rw [hparent, List.getElem?_eq_getElem], rfl⟩
    · -- above the last class of the line there is none that the line has not been at
      have hend : (name :: line).getLast (List.cons_ne_nil _ _) = (name :: line)[j] := by
        rw [List.getLast_eq_getElem]
        congr 1
        omega
      have hmem := h.complete x (hend ▸ habove)
      obtain ⟨x', hx', heq⟩ := List.mem_map.mp hmem
      obtain ⟨i, hi, rfl⟩ := List.getElem_of_mem hx'
      exact ⟨i, by omega, _, List.getElem?_eq_getElem hi, heq⟩

/-- The first class of a line that has a method is the one of the nearest generation. -/
theorem firstWith_iff (hcongr : ∀ x y, Text.lower x = Text.lower y → above x = above y)
    (h : Lineage above name line) {table : SymbolTable} {method : String}
    {found : String × SymbolEntry} :
    table.FirstWith method (name :: line) x found ↔
      ∃ k, generation? above name k = some x ∧
        table.find? (Candidate.methodKey x method) = some found ∧
          ∀ j < k, ∀ y, generation? above name j = some y →
            table.find? (Candidate.methodKey y method) = none := by
  constructor
  · rintro ⟨before, after, horder, hfound, hnone⟩
    refine ⟨before.length, h.generation?_of_getElem? (by simp [horder]), hfound, ?_⟩
    intro j hj y hy
    have hbefore : (name :: line)[j]? = some before[j] := by
      rw [horder, List.getElem?_append_left hj, List.getElem?_eq_getElem hj]
    obtain rfl : before[j] = y := by simpa [h.generation?_of_getElem? hbefore] using hy
    exact hnone _ (List.getElem_mem hj)
  · rintro ⟨k, hx, hfound, hnone⟩
    obtain ⟨j, hj, x', hx', hlower⟩ := h.exists_getElem? hcongr hx
    have hgeneration := h.generation?_of_getElem? hx'
    -- a class that the line comes to before this one would have the method, too
    obtain rfl : j = k := by
      by_contra hne
      have hmissing := hnone j (by omega) x' hgeneration
      rw [SymbolTable.find?_methodKey_eq_none_congr hlower, hfound] at hmissing
      exact nomatch hmissing
    obtain rfl : x' = x := by simpa [hgeneration] using hx
    obtain ⟨hlt, hget⟩ := List.getElem?_eq_some_iff.mp hx'
    refine ⟨(name :: line).take j, (name :: line).drop (j + 1), ?_, hfound, fun y hy => ?_⟩
    · rw [← hget, ← List.drop_eq_getElem_cons hlt, List.take_append_drop]
    · obtain ⟨i, hi, rfl⟩ := List.getElem_of_mem hy
      have hij : i < j := by
        rw [List.length_take] at hi
        omega
      refine hnone i hij _ (h.generation?_of_getElem? ?_)
      rw [List.getElem_take, List.getElem?_eq_getElem]

end Lineage

namespace Classes

open ClassRecord (above?)

variable {known : Classes} {cs order : List String}

/-- Names are added behind an order if they are not in it, the first spelling of each. -/
theorem foldl_addUnique (names order : List String) :
    names.foldl addUnique order =
      order ++ (names.filter fun x => !order.any (Text.sameLetters x)).eraseDupsBy
        Text.sameLetters := by
  induction names generalizing order with
  | nil => simp
  | cons name names ih =>
    rw [List.foldl_cons, addUnique]
    by_cases h : order.any (Text.sameLetters name) = true
    · rw [if_pos h, ih, List.filter_cons_of_neg (by simp [h])]
    · rw [if_neg h, ih, List.filter_cons_of_pos (by simp [h]), List.eraseDupsBy_cons,
        List.filter_filter, List.append_assoc, List.singleton_append]
      congr 4
      funext x
      cases hx : Text.sameLetters x name <;> simp [hx]

theorem nodup_foldl_addUnique {names : List String} (h : (order.map Text.lower).Nodup) :
    ((names.foldl addUnique order).map Text.lower).Nodup := by
  induction names generalizing order with
  | nil => exact h
  | cons name names ih =>
    refine ih ?_
    unfold addUnique
    split
    · exact h
    · rename_i hnew
      rw [List.map_append, List.map_singleton]
      refine List.nodup_append.mpr ⟨h, List.nodup_singleton _, ?_⟩
      rintro _ hx _ hy rfl
      obtain ⟨x, hx, heq⟩ := List.mem_map.mp hx
      exact hnew (has_iff.mpr ⟨x, hx, (heq.trans (List.mem_singleton.mp hy)).symm⟩)

theorem addUnique_of_not_has {name : String} (h : ¬Has order name) :
    addUnique order name = order ++ [name] := by
  unfold addUnique
  exact if_neg h

/-- Different names are all added. -/
theorem foldl_addUnique_of_nodup {names : List String}
    (h : ((order ++ names).map Text.lower).Nodup) :
    names.foldl addUnique order = order ++ names := by
  induction names generalizing order with
  | nil => simp
  | cons name names ih =>
    have hnew : ¬Has order name := by
      intro hhas
      obtain ⟨other, hother, heq⟩ := has_iff.mp hhas
      rw [List.map_append] at h
      exact (List.nodup_append.mp h).2.2 _ (List.mem_map_of_mem hother) _ List.mem_cons_self
        heq.symm
    rw [List.foldl_cons, addUnique_of_not_has hnew, ih (by simpa using h), List.append_assoc,
      List.singleton_append]

/-- The ancestors of a class, or none for an unknown one, are the line that leads up from it. -/
theorem lineage_getD (known : Classes) (name : String) :
    Lineage (above? known.records) name ((known.ancestors? name).getD []) := by
  cases hline : known.ancestors? name with
  | some line => exact (ancestors?_eq_some_iff.mp hline).2
  | none =>
    have hunknown : ClassRecord.first? known.records name = none := by
      unfold ancestors? at hline
      split at hline
      · assumption
      · exact nomatch hline
    have htop : above? known.records name = none := by rw [above?, hunknown, Option.bind_none]
    exact ⟨by simp, by simp, fun parent hparent => by simp [htop] at hparent⟩

theorem probeOrder_singleton (known : Classes) (name : String) :
    known.probeOrder [name] = name :: (known.ancestors? name).getD [] := by
  have hdistinct := (known.lineage_getD name).distinct
  unfold probeOrder
  simp only [List.flatMap_cons, List.flatMap_nil, List.append_nil]
  exact @foldl_addUnique_of_nodup [] _ hdistinct

theorem nodup_probeOrder (known : Classes) (cs : List String) :
    ((known.probeOrder cs).map Text.lower).Nodup :=
  nodup_foldl_addUnique List.nodup_nil

theorem mem_probeOrder_iff {x : String} :
    (∃ y ∈ known.probeOrder cs, Text.lower y = Text.lower x) ↔
      (∃ c ∈ cs, Text.lower c = Text.lower x) ∨
        ∃ c ∈ cs, ∃ line, known.ancestors? c = some line ∧
          ∃ y ∈ line, Text.lower y = Text.lower x := by
  have hhas (names : List String) :
      Has names x ↔ ∃ y ∈ names, Text.lower y = Text.lower x := by
    simp only [has_iff, eq_comm]
  have hnone : ¬Has [] x := by simp [Has]
  rw [← hhas, probeOrder, has_foldl, or_iff_right hnone, hhas]
  simp only [List.mem_append, List.mem_flatMap, or_and_right, exists_or]
  refine or_congr_right ⟨?_, ?_⟩
  · rintro ⟨y, ⟨c, hc, hy⟩, heq⟩
    cases hline : known.ancestors? c with
    | none => simp [hline] at hy
    | some line => exact ⟨c, hc, line, hline, y, by simpa [hline] using hy, heq⟩
  · rintro ⟨c, hc, line, hline, y, hy, heq⟩
    exact ⟨y, ⟨c, hc, by simpa [hline] using hy⟩, heq⟩

/-- The classes of the receiver come first, then their ancestors that are not among them, both in
order and in the first spelling. -/
theorem probeOrder_eq_append (known : Classes) (cs : List String) :
    known.probeOrder cs =
      cs.eraseDupsBy Text.sameLetters ++
        ((cs.flatMap fun c => (known.ancestors? c).getD []).filter fun x =>
          !cs.any (Text.sameLetters x)).eraseDupsBy Text.sameLetters := by
  have hown : cs.foldl addUnique [] = cs.eraseDupsBy Text.sameLetters := by
    simpa using foldl_addUnique cs []
  have hsame (x : String) :
      (cs.foldl addUnique []).any (Text.sameLetters x) = cs.any (Text.sameLetters x) :=
    Bool.eq_iff_iff.mpr has_unique
  rw [probeOrder, List.foldl_append, foldl_addUnique _ (cs.foldl addUnique [])]
  simp only [hsame]
  rw [hown]

end Classes

namespace Candidate

open Php

variable {known : Classes} {method : String} {receiver : Option Variable} {cs keys : List String}

theorem keys_of_ofMethod? {name : String} {object : Option Variable} {classes : List String}
    (h : ofMethod? known name object classes = some (.method method receiver cs keys)) :
    keys = (known.probeOrder cs).map (methodKey · method) := by
  obtain ⟨rfl, -, rfl, rfl⟩ := Candidate.method.inj (eq_of_ofMethod? h)
  rfl

/-- The keys of a method are those of its classes and their ancestors. -/
theorem keys_of_ofCall? {scope : Scope} {call : Node}
    (h : ofCall? known scope call = some (.method method receiver cs keys)) :
    keys = (known.probeOrder cs).map (methodKey · method) := by
  unfold ofCall? at h
  split at h
  · obtain ⟨name, -, hname⟩ := Option.map_eq_some_iff.mp h
    cases hname
  · split at h
    · exact keys_of_ofMethod? h
    · cases h
  · split at h
    · exact keys_of_ofMethod? h
    · cases h
  · split at h
    · exact keys_of_ofMethod? h
    · cases h
  · cases h

end Candidate

namespace Policy

open Php

/-- Without a guard, what the first found key has is reported if it is newer than the minimum. -/
theorem evaluate_method_eq_some_iff {p : Policy} {guards : Guards} {method : String}
    {receiver : Option Variable} {cs keys : List String} {f : Finding}
    (hfree : guards.coversMethod receiver cs method = false) :
    p.evaluate guards (.method method receiver cs keys) = some f ↔
      ∃ symbol entry, keys.findSome? p.table.find? = some (symbol, entry) ∧
        entry.since.isNewer p.minimum = true ∧
          f = p.finding .methodNotAvailable symbol entry.since := by
  simp only [evaluate, hfree, Bool.false_eq_true, or_false, Version.isNewer_eq]
  cases keys.findSome? p.table.find? with
  | none => simp
  | some found =>
    obtain ⟨symbol, entry⟩ := found
    by_cases hold : entry.since ≤ p.minimum
    · simp [hold]
    · simp only [if_neg hold]
      constructor
      · intro h
        exact ⟨symbol, entry, rfl, by simp [hold], (Option.some.inj h).symm⟩
      · rintro ⟨symbol', entry', hfound, -, rfl⟩
        obtain ⟨rfl, rfl⟩ := Prod.mk.inj (Option.some.inj hfound)
        rfl

/-- The classes in which a method is looked up are all different. They are those of the receiver and
their ancestors, the former before the latter and the nearer ones first. A call that no guard covers
is reported exactly if the first of these classes that the table has the method for has it in an
entry newer than the minimum; what the table says of later classes has no influence. For a receiver
of one class this is the first of the class, its parent, its grandparent and so on. -/
theorem evaluate_nearest (p : Policy) (cs : List String) (method : String) :
    ((p.classes.probeOrder cs).map Text.lower).Nodup ∧
    (∀ x, (∃ y ∈ p.classes.probeOrder cs, Text.lower y = Text.lower x) ↔
      (∃ c ∈ cs, Text.lower c = Text.lower x) ∨
        ∃ c ∈ cs, ∃ line, p.classes.ancestors? c = some line ∧
          ∃ y ∈ line, Text.lower y = Text.lower x) ∧
    p.classes.probeOrder cs =
      cs.eraseDupsBy Text.sameLetters ++
        ((cs.flatMap fun c => (p.classes.ancestors? c).getD []).filter fun x =>
          !cs.any (Text.sameLetters x)).eraseDupsBy Text.sameLetters ∧
    (∀ scope call receiver keys guards,
      Candidate.ofCall? p.classes scope call = some (.method method receiver cs keys) →
      guards.coversMethod receiver cs method = false →
        (∀ f, p.evaluate guards (.method method receiver cs keys) = some f ↔
          ∃ x symbol entry,
            p.table.FirstWith method (p.classes.probeOrder cs) x (symbol, entry) ∧
              entry.since.isNewer p.minimum = true ∧
                f = p.finding .methodNotAvailable symbol entry.since) ∧
        ∀ before x after, p.classes.probeOrder cs = before ++ x :: after →
          p.table.find? (Candidate.methodKey x method) ≠ none →
          ∀ other : SymbolTable,
            (∀ y ∈ before ++ [x], other.find? (Candidate.methodKey y method) =
              p.table.find? (Candidate.methodKey y method)) →
            { p with table := other }.evaluate guards (.method method receiver cs keys) =
              p.evaluate guards (.method method receiver cs keys)) ∧
    ∀ c, cs = [c] → ∀ x found,
      p.table.FirstWith method (p.classes.probeOrder cs) x found ↔
        ∃ k, generation? (ClassRecord.above? p.classes.records) c k = some x ∧
          p.table.find? (Candidate.methodKey x method) = some found ∧
            ∀ j < k, ∀ y, generation? (ClassRecord.above? p.classes.records) c j = some y →
              p.table.find? (Candidate.methodKey y method) = none := by
  refine ⟨p.classes.nodup_probeOrder cs, fun x => Classes.mem_probeOrder_iff,
    p.classes.probeOrder_eq_append cs, ?_, ?_⟩
  · intro scope call receiver keys guards hcall hfree
    obtain rfl := Candidate.keys_of_ofCall? hcall
    refine ⟨fun f => ?_, fun before x after horder hx other hsame => ?_⟩
    · rw [evaluate_method_eq_some_iff hfree]
      simp only [← SymbolTable.exists_firstWith_iff]
      constructor
      · rintro ⟨symbol, entry, ⟨x, hfirst⟩, hnewer, hf⟩
        exact ⟨x, symbol, entry, hfirst, hnewer, hf⟩
      · rintro ⟨x, symbol, entry, hfirst, hnewer, hf⟩
        exact ⟨symbol, entry, ⟨x, hfirst⟩, hnewer, hf⟩
    · simp only [evaluate, horder, SymbolTable.findSome?_append_congr hx hsame]
      rfl
  · rintro c rfl x found
    rw [p.classes.probeOrder_singleton c]
    exact (p.classes.lineage_getD c).firstWith_iff fun _ _ => ClassRecord.above?_congr

/-- A class whose parent has a method that its grandparent has in an older entry. The classes extend
one another in a circle. -/
def inheritedPolicy : Policy where
  table := { symbols := [("Root::send", ⟨⟨5, 0, 0⟩, none⟩), ("base::send", ⟨⟨6, 1, 0⟩, none⟩)] }
  minimum := ⟨6, 0, 0⟩
  classes := Classes.insertAll {}
    [⟨"Child", some "BASE"⟩, ⟨"Base", some "Root"⟩, ⟨"Root", some "Child"⟩]

/-- A call of the method of the class. -/
def inheritedCall : Node :=
  .mk .staticCall .none 1 none [.mk .name .scope 1 (some "child") [],
    .mk .name .name 1 (some "send") [], .mk .arguments .arguments 1 none []]

theorem evaluate_nearest_inheritedCall :
    ∃ keys f, Candidate.ofCall? inheritedPolicy.classes { id := 0 } inheritedCall =
        some (.method "send" none ["child"] keys) ∧
      Guards.coversMethod {} none ["child"] "send" = false ∧
      inheritedPolicy.evaluate {} (.method "send" none ["child"] keys) = some f ∧
      f.symbol = "base::send" ∧
      ∃ x symbol entry,
        inheritedPolicy.table.FirstWith "send" (inheritedPolicy.classes.probeOrder ["child"]) x
            (symbol, entry) ∧
          entry.since.isNewer inheritedPolicy.minimum = true ∧
            f = inheritedPolicy.finding .methodNotAvailable symbol entry.since := by
  have hcall : Candidate.ofCall? inheritedPolicy.classes { id := 0 } inheritedCall =
      some (.method "send" none ["child"] ["child::send", "Base::send", "Root::send"]) := by
    decide +kernel
  have hf : inheritedPolicy.evaluate {}
      (.method "send" none ["child"] ["child::send", "Base::send", "Root::send"]) =
        some (inheritedPolicy.finding .methodNotAvailable "base::send" ⟨6, 1, 0⟩) := by
    decide +kernel
  refine ⟨_, _, hcall, rfl, hf, rfl, ?_⟩
  have hcalls := (evaluate_nearest inheritedPolicy ["child"] "send").2.2.2.1
  exact ((hcalls _ _ _ _ {} hcall rfl).1 _).mp hf

end Policy

end Availability
