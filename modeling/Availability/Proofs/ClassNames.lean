import Availability.Proofs.Pointwise
import Availability.Proofs.Spelling

/-!
# Lists of class names

Two lists of class names stand for the same classes if they are the same once of the names that
differ in the case of letters only the first is kept. This is all that the order in which methods
are looked up, and the guards, depend on. Scopes that agree in this sense stay so when a variable is
bound.
-/
namespace Availability

namespace Classes

variable {order names : List String} {name : String}

/-- The names without those that are there before in another case. -/
def unique (names : List String) : List String :=
  names.foldl addUnique []

/-- Whether a name is in a list, in whatever case. -/
def Has (order : List String) (name : String) : Prop :=
  order.any (Text.sameLetters name) = true

theorem has_iff : Has order name ↔ ∃ other ∈ order, Text.lower name = Text.lower other := by
  simp [Has]

theorem addUnique_of_has (h : Has order name) : addUnique order name = order := by
  unfold addUnique
  exact if_pos h

theorem has_addUnique (name : String) {other : String} :
    Has (addUnique order name) other ↔ Has order other ∨ Text.lower other = Text.lower name := by
  unfold addUnique
  split
  · rename_i h
    obtain ⟨kept, hkept, heq⟩ := has_iff.mp h
    constructor
    · exact .inl
    · rintro (h | h)
      · exact h
      · exact has_iff.mpr ⟨kept, hkept, h.trans heq⟩
  · simp only [has_iff, List.mem_append, List.mem_singleton, or_and_right, exists_or,
      exists_eq_left]

theorem has_foldl {other : String} :
    Has (names.foldl addUnique order) other ↔ Has order other ∨ Has names other := by
  induction names generalizing order with
  | nil => simp [Has]
  | cons name names ih =>
    rw [List.foldl_cons, ih, has_addUnique, or_assoc]
    simp [Has]

/-- Names that are there before add nothing. -/
theorem foldl_addUnique_of_has (h : ∀ name ∈ names, Has order name) :
    names.foldl addUnique order = order := by
  induction names with
  | nil => rfl
  | cons name names ih =>
    rw [List.foldl_cons, addUnique_of_has (h name List.mem_cons_self)]
    exact ih fun other hother => h other (List.mem_cons_of_mem name hother)

theorem has_of_mem (h : name ∈ order) : Has order name :=
  has_iff.mpr ⟨name, h, rfl⟩

/-- What names lead to is complete with what the unique ones lead to. -/
theorem foldl_flatMap_unique {above : String → List String}
    (habove : ∀ a b, Text.lower a = Text.lower b → above a = above b) (seen order : List String) :
    ((names.foldl addUnique seen).flatMap above).foldl addUnique order =
      ((seen ++ names).flatMap above).foldl addUnique order := by
  induction names generalizing seen with
  | nil => simp
  | cons name names ih =>
    rw [List.foldl_cons, ih, addUnique]
    split
    · rename_i h
      obtain ⟨kept, hkept, heq⟩ := has_iff.mp h
      -- what the name leads to has been there since what the kept one leads to
      have hnone : (above name).foldl addUnique ((seen.flatMap above).foldl addUnique order) =
          (seen.flatMap above).foldl addUnique order := by
        refine foldl_addUnique_of_has fun other hother => has_foldl.mpr (.inr (has_of_mem ?_))
        exact List.mem_flatMap.mpr ⟨kept, hkept, habove _ _ heq ▸ hother⟩
      simp only [List.flatMap_append, List.flatMap_cons, List.foldl_append, hnone]
    · simp

theorem foldl_addUnique_filter (h : Has order name) :
    (names.filter (!· == name)).foldl addUnique order = names.foldl addUnique order := by
  induction names generalizing order with
  | nil => rfl
  | cons other names ih =>
    by_cases heq : other = name
    · subst heq
      rw [List.foldl_cons, addUnique_of_has h, ← ih h]
      simp
    · rw [List.filter_cons_of_pos (by simpa using heq), List.foldl_cons, List.foldl_cons]
      exact ih ((has_addUnique other).mpr (.inl h))

theorem foldl_addUnique_eraseDups (names order : List String) :
    names.eraseDups.foldl addUnique order = names.foldl addUnique order := by
  cases names with
  | nil => rfl
  | cons name names =>
    rw [List.eraseDups_cons, List.foldl_cons, List.foldl_cons, foldl_addUnique_eraseDups,
      foldl_addUnique_filter ((has_addUnique name).mpr (.inr rfl))]
termination_by names.length
decreasing_by exact Nat.lt_succ_of_le (List.length_filter_le _ _)

theorem ancestors?_congr (known : Classes) {a b : String} (h : Text.lower a = Text.lower b) :
    known.ancestors? a = known.ancestors? b := by
  simp only [ancestors?, find?, Text.sameLetters, h]

/-- The order of look-up depends on the unique names only. -/
theorem probeOrder_eq (known : Classes) (names : List String) :
    known.probeOrder names =
      ((unique names).flatMap fun name => (known.ancestors? name).getD []).foldl addUnique
        (unique names) := by
  unfold probeOrder
  rw [List.foldl_append, unique,
    foldl_flatMap_unique fun a b h => by rw [known.ancestors?_congr h], List.nil_append]

theorem unique_eq_nil : unique names = [] ↔ names = [] := by
  constructor
  · intro h
    rw [List.eq_nil_iff_forall_not_mem]
    intro name hname
    have hhas : Has (unique names) name := has_foldl.mpr (.inr (has_of_mem hname))
    simp [h, Has] at hhas
  · rintro rfl
    rfl

theorem has_unique : Has (unique names) name ↔ Has names name := by
  rw [unique, has_foldl]
  simp [Has]

end Classes

namespace Spelling

open Classes

variable {S : Spelling} {cs cs' : List String}

/-- Both lists stand for the same classes. -/
def SameNames (S : Spelling) (cs cs' : List String) : Prop :=
  (unique cs).map S.norm = (unique cs').map S.norm

theorem any_sameLetters_congr {a b : String} (hab : S.norm a = S.norm b)
    (h : cs.map S.norm = cs'.map S.norm) :
    cs.any (Text.sameLetters a) = cs'.any (Text.sameLetters b) := by
  have key (cs : List String) (a : String) :
      cs.any (Text.sameLetters a) = (cs.map S.norm).any (Text.sameLetters a) := by
    rw [List.any_map]
    congr 1
    funext b
    simp only [Function.comp_apply, Text.sameLetters, S.lower_norm]
  have heq : Text.sameLetters a = Text.sameLetters b := by
    funext c
    exact S.sameLetters_congr hab rfl
  rw [key, key cs', h, heq]

theorem foldl_addUnique_congr {order order' : List String}
    (horder : order.map S.norm = order'.map S.norm) (h : cs.map S.norm = cs'.map S.norm) :
    (cs.foldl addUnique order).map S.norm = (cs'.foldl addUnique order').map S.norm := by
  induction cs generalizing order order' cs' with
  | nil =>
    obtain rfl : cs' = [] := by simpa using h.symm
    exact horder
  | cons name cs ih =>
    obtain ⟨name', rest, rfl, hname, hrest⟩ := List.map_eq_cons_iff.mp h.symm
    rw [List.foldl_cons, List.foldl_cons]
    refine ih ?_ hrest.symm
    unfold addUnique
    rw [any_sameLetters_congr hname.symm horder]
    split
    · exact horder
    · simp [horder, hname]

namespace SameNames

theorem of_map_eq (h : cs.map S.norm = cs'.map S.norm) : S.SameNames cs cs' :=
  foldl_addUnique_congr rfl h

theorem eraseDups (h : cs.map S.norm = cs'.map S.norm) :
    S.SameNames cs.eraseDups cs'.eraseDups := by
  unfold SameNames unique
  rw [foldl_addUnique_eraseDups, foldl_addUnique_eraseDups]
  exact foldl_addUnique_congr rfl h

theorem of_option {name name' : Option String} (h : name.map S.norm = name'.map S.norm) :
    S.SameNames name.toList name'.toList := by
  apply of_map_eq
  rw [← Option.toList_map, h, Option.toList_map]

theorem isEmpty_eq (h : S.SameNames cs cs') : cs.isEmpty = cs'.isEmpty := by
  have hnil : unique cs = [] ↔ unique cs' = [] := by
    rw [← List.map_eq_nil_iff (f := S.norm), h, List.map_eq_nil_iff]
  rw [Bool.eq_iff_iff, List.isEmpty_iff, List.isEmpty_iff, ← unique_eq_nil, hnil, unique_eq_nil]

theorem any_eq (h : S.SameNames cs cs') {a b : String} (hab : S.norm a = S.norm b) :
    cs.any (Text.sameLetters a) = cs'.any (Text.sameLetters b) := by
  have key (cs : List String) (a : String) :
      cs.any (Text.sameLetters a) = (unique cs).any (Text.sameLetters a) :=
    Bool.eq_iff_iff.mpr has_unique.symm
  rw [key, key cs', any_sameLetters_congr hab h]

/-- Methods of the same classes are looked up in the same order. -/
theorem probeOrder (h : S.SameNames cs cs') (known : Classes) :
    (known.probeOrder cs).map S.norm = (known.probeOrder cs').map S.norm := by
  rw [probeOrder_eq, probeOrder_eq]
  have key (cs : List String) :
      cs.flatMap (fun name => (known.ancestors? name).getD []) =
        (cs.map S.norm).flatMap fun name => (known.ancestors? name).getD [] := by
    simp only [List.flatMap_map, known.ancestors?_congr (S.lower_norm _)]
  refine foldl_addUnique_congr h ?_
  rw [key, key (unique cs'), h]

end SameNames

end Spelling

namespace Scope

variable {S : Spelling} {s s' : Scope}

theorem find?_filter_ne (bindings : List (String × List String)) {bound name : String}
    (h : name ≠ bound) :
    (bindings.filter (·.1 != bound)).find? (·.1 == name) = bindings.find? (·.1 == name) := by
  rw [List.find?_filter]
  congr 1
  funext entry
  by_cases hentry : entry.1 = name
  · simp [hentry, h]
  · simp [hentry]

/-- Only the bound variable has other classes than before, and `$this` cannot be bound. -/
theorem classesOf_assign (s : Scope) (bound name : String) (classes : List String) :
    (s.assign bound classes).classesOf name =
      if name ≠ "this" ∧ name = bound then classes else s.classesOf name := by
  by_cases hthis : name = "this"
  · simp [classesOf, assign, hthis]
  · by_cases hname : name = bound
    · rw [if_pos ⟨hthis, hname⟩, ← hname, classesOf_assign_self s classes hthis]
    · rw [if_neg fun h => hname h.2]
      simp only [classesOf, assign, beq_iff_eq, hthis, if_false]
      cases classes with
      | nil => simp only [List.isEmpty_nil, if_true, find?_filter_ne _ hname]
      | cons first rest =>
        simp only [List.isEmpty_cons, Bool.false_eq_true, if_false, List.find?_cons,
          beq_eq_false_iff_ne.mpr (Ne.symm hname), find?_filter_ne _ hname]

/-- Scopes that know the same, whatever their ids. -/
structure Agree (S : Spelling) (s s' : Scope) : Prop where
  class? : s.class?.map S.norm = s'.class?.map S.norm
  parent? : s.parent?.map S.norm = s'.parent?.map S.norm
  classesOf : ∀ name, S.SameNames (s.classesOf name) (s'.classesOf name)

namespace Agree

/-- Scopes without bindings know the class around. -/
theorem of_context {id id' : Nat} {c c' p p' : Option String}
    (hc : c.map S.norm = c'.map S.norm) (hp : p.map S.norm = p'.map S.norm) :
    Agree S { id := id, class? := c, parent? := p } { id := id', class? := c', parent? := p' } := by
  refine ⟨hc, hp, fun name => ?_⟩
  by_cases hthis : name = "this"
  · simpa [Scope.classesOf, hthis] using Spelling.SameNames.of_option hc
  · simpa [Scope.classesOf, hthis] using Spelling.SameNames.of_map_eq rfl

theorem assign (h : Agree S s s') (name : String) {cs cs' : List String}
    (hcs : S.SameNames cs cs') : Agree S (s.assign name cs) (s'.assign name cs') := by
  refine ⟨h.class?, h.parent?, fun other => ?_⟩
  rw [classesOf_assign, classesOf_assign]
  split
  · exact hcs
  · exact h.classesOf other

theorem resolve? (h : Agree S s s') {a b : String} (hab : S.norm a = S.norm b) :
    (s.resolve? a).map S.norm = (s'.resolve? b).map S.norm := by
  have same (name : String) : Text.sameLetters a name = Text.sameLetters b name :=
    S.sameLetters_congr hab rfl
  unfold Scope.resolve?
  rw [same, same, same]
  split
  · exact h.class?
  · split
    · exact h.parent?
    · simp [hab]

theorem bind_resolve? (h : Agree S s s') {a b : Option String}
    (hab : a.map S.norm = b.map S.norm) :
    (a.bind s.resolve?).map S.norm = (b.bind s'.resolve?).map S.norm :=
  rel_bind_map (rel_of_map_eq hab) fun _ _ => h.resolve?

end Agree

end Scope

end Availability
