import Availability.Proofs.KnownClasses
import Mathlib.Data.List.Chain
import Mathlib.Data.List.Perm.Subperm
import Mathlib.Tactic.Common

/-!
# Lines of ancestors

The ancestors of a class are the longest line that leads up from it, from parent to parent, without
coming to a class again. Classes may extend themselves, each other or classes that nobody knows: a
line sees a further known class with every step, so it ends after at most as many steps as there are
classes.
-/
namespace Availability

namespace ClassRecord

/-- The first record with a name, in whatever case. -/
def first? (records : List ClassRecord) (name : String) : Option ClassRecord :=
  records.find? fun record => Text.sameLetters record.name name

/-- A name as it was recorded first, or as it is given if it was not recorded. -/
def spelled (records : List ClassRecord) (name : String) : String :=
  ((first? records name).map (·.name)).getD name

/-- The class above a class: the parent that was recorded for it. -/
def above? (records : List ClassRecord) (name : String) : Option String :=
  (first? records name).bind fun record => record.parent.map (spelled records)

variable {records : List ClassRecord} {name : String} {record : ClassRecord}

theorem first?_eq_none_iff :
    first? records name = none ↔ ∀ record ∈ records, Text.lower record.name ≠ Text.lower name := by
  simp [first?]

theorem exists_first?_iff :
    (∃ record, first? records name = some record) ↔
      ∃ record ∈ records, Text.lower record.name = Text.lower name := by
  simp [first?, ← Option.isSome_iff_exists]

theorem lower_of_first? (h : first? records name = some record) :
    Text.lower record.name = Text.lower name := by
  simpa using List.find?_some h

theorem first?_congr {other : String} (h : Text.lower name = Text.lower other) :
    first? records name = first? records other :=
  (⟨records⟩ : Classes).find?_congr h

theorem above?_congr {other : String} (h : Text.lower name = Text.lower other) :
    above? records name = above? records other := by
  simp only [above?, first?_congr h]

theorem lower_spelled (records : List ClassRecord) (name : String) :
    Text.lower (spelled records name) = Text.lower name := by
  unfold spelled
  cases h : first? records name with
  | none => rfl
  | some record => exact lower_of_first? h

theorem first?_of_above? {parent : String} (h : above? records name = some parent) :
    ∃ record, first? records name = some record := by
  obtain ⟨record, hrecord, -⟩ := Option.bind_eq_some_iff.mp h
  exact ⟨record, hrecord⟩

theorem first?_insertAll (records : List ClassRecord) :
    first? (Classes.insertAll {} records).records = first? records := by
  funext name
  exact Classes.find?_insertAll {} records name

theorem above?_insertAll (records : List ClassRecord) :
    above? (Classes.insertAll {} records).records = above? records := by
  have hspelled : spelled (Classes.insertAll {} records).records = spelled records := by
    funext name
    simp only [spelled, first?_insertAll]
  funext name
  simp only [above?, first?_insertAll, hspelled]

end ClassRecord

/-- A line leads up from a class: each class of it is the one above the class before, no class comes
twice, in whatever case, and above the last class is none that would be a further one. -/
structure Lineage (above : String → Option String) (name : String) (line : List String) :
    Prop where
  parents : (name :: line).IsChain fun x y => above x = some y
  distinct : ((name :: line).map Text.lower).Nodup
  complete : ∀ parent, above ((name :: line).getLast (List.cons_ne_nil _ _)) = some parent →
    Text.lower parent ∈ (name :: line).map Text.lower

/-- A line leads up from a class past the classes that were seen before. -/
structure Climbs (above : String → Option String) (seen : List String) (name : String)
    (line : List String) : Prop where
  parents : (name :: line).IsChain fun x y => above x = some y
  distinct : (line.map Text.lower).Nodup
  fresh : ∀ x ∈ line, Text.lower x ∉ seen
  complete : ∀ parent, above ((name :: line).getLast (List.cons_ne_nil _ _)) = some parent →
    Text.lower parent ∈ seen ∨ Text.lower parent ∈ line.map Text.lower

section Lines

variable {above : String → Option String} {seen : List String} {name other x : String}
  {line line' : List String}

theorem lineage_iff_climbs :
    Lineage above name line ↔ Climbs above [Text.lower name] name line := by
  constructor
  · intro h
    obtain ⟨hname, hline⟩ := List.nodup_cons.mp h.distinct
    refine ⟨h.parents, hline, fun x hx hseen => ?_, fun parent hparent => ?_⟩
    · exact hname (List.mem_singleton.mp hseen ▸ List.mem_map_of_mem hx)
    · simpa using h.complete parent hparent
  · intro h
    refine ⟨h.parents, List.nodup_cons.mpr ⟨fun hname => ?_, h.distinct⟩, fun parent hparent => ?_⟩
    · obtain ⟨x, hx, heq⟩ := List.mem_map.mp hname
      exact h.fresh x hx (List.mem_singleton.mpr heq)
    · simpa using h.complete parent hparent

theorem climbs_nil_iff :
    Climbs above seen name [] ↔ ∀ parent, above name = some parent → Text.lower parent ∈ seen := by
  constructor
  · intro h parent hparent
    simpa using h.complete parent hparent
  · intro h
    exact ⟨by simp, by simp, by simp, fun parent hparent => .inl (h parent hparent)⟩

theorem climbs_cons_iff :
    Climbs above seen name (x :: line) ↔
      above name = some x ∧ Text.lower x ∉ seen ∧ Climbs above (Text.lower x :: seen) x line := by
  constructor
  · intro h
    obtain ⟨habove, hchain⟩ := List.isChain_cons_cons.mp h.parents
    obtain ⟨hx, hline⟩ := List.nodup_cons.mp h.distinct
    refine ⟨habove, h.fresh x List.mem_cons_self, hchain, hline, fun y hy => ?_, ?_⟩
    · simp only [List.mem_cons, not_or]
      refine ⟨fun heq => hx ?_, h.fresh y (List.mem_cons_of_mem x hy)⟩
      exact List.mem_map.mpr ⟨y, hy, heq⟩
    · intro parent hparent
      rcases h.complete parent hparent with hseen | hmem
      · exact .inl (List.mem_cons_of_mem _ hseen)
      · simp only [List.map_cons, List.mem_cons] at hmem ⊢
        tauto
  · rintro ⟨habove, hnew, h⟩
    refine ⟨List.isChain_cons_cons.mpr ⟨habove, h.parents⟩, ?_, ?_, ?_⟩
    · refine List.nodup_cons.mpr ⟨fun hmem => ?_, h.distinct⟩
      obtain ⟨y, hy, heq⟩ := List.mem_map.mp hmem
      exact h.fresh y hy (heq ▸ List.mem_cons_self)
    · intro y hy
      rcases List.mem_cons.mp hy with rfl | hy
      · exact hnew
      · exact fun hseen => h.fresh y hy (List.mem_cons_of_mem _ hseen)
    · intro parent hparent
      have hcases := h.complete parent hparent
      simp only [List.map_cons, List.mem_cons] at hcases ⊢
      tauto

theorem Climbs.congr (habove : above name = above other) :
    Climbs above seen name line ↔ Climbs above seen other line := by
  cases line with
  | nil => rw [climbs_nil_iff, climbs_nil_iff, habove]
  | cons x line => rw [climbs_cons_iff, climbs_cons_iff, habove]

/-- There is only one line that leads up from a class. -/
theorem Climbs.unique (h : Climbs above seen name line) (h' : Climbs above seen name line') :
    line = line' := by
  induction line generalizing seen name line' with
  | nil =>
    cases line' with
    | nil => rfl
    | cons x line' =>
      obtain ⟨habove, hnew, -⟩ := climbs_cons_iff.mp h'
      exact absurd (climbs_nil_iff.mp h x habove) hnew
  | cons x line ih =>
    obtain ⟨habove, hnew, hrest⟩ := climbs_cons_iff.mp h
    cases line' with
    | nil => exact absurd (climbs_nil_iff.mp h' x habove) hnew
    | cons y line' =>
      obtain ⟨habove', -, hrest'⟩ := climbs_cons_iff.mp h'
      obtain rfl : x = y := by simpa [habove] using habove'
      rw [ih hrest hrest']

/-- Every class of a line but the last has a class above it. -/
theorem above_of_mem_dropLast {line : List String}
    (h : line.IsChain fun x y => above x = some y) (hx : x ∈ line.dropLast) :
    ∃ y, above x = some y := by
  induction line with
  | nil => simp at hx
  | cons first rest ih =>
    cases rest with
    | nil => simp at hx
    | cons second rest =>
      obtain ⟨habove, hrest⟩ := List.isChain_cons_cons.mp h
      rcases List.mem_cons.mp hx with rfl | hx
      · exact ⟨second, habove⟩
      · exact ih hrest hx

end Lines

namespace Classes

open ClassRecord (first? above? spelled)

variable {known : Classes} {seen line : List String} {record : ClassRecord} {name : String}

/-- Different names of known classes are at most as many as the known classes. -/
theorem length_le_size {names : List String} (hnodup : names.Nodup)
    (hknown : ∀ x ∈ names, x ∈ known.records.map fun record => Text.lower record.name) :
    names.length ≤ known.size := by
  simpa [size] using (List.Nodup.subperm hnodup hknown).length_le

theorem above?_of_find? (h : known.find? name = some record) :
    above? known.records name = record.parent.map (spelled known.records) := by
  have hfirst : first? known.records name = some record := h
  rw [above?, hfirst, Option.bind_some]

theorem find?_name (h : known.find? name = some record) : known.find? record.name = some record :=
  (known.find?_congr (ClassRecord.lower_of_first? h)).trans h

/-- A chain leads up past the classes that were seen. The steps are enough, for as long as there are
steps left, a known class is left that was not seen. -/
theorem chain_climbs {steps : Nat} (hrecord : known.find? record.name = some record)
    (hseen : seen.Nodup)
    (hknown : ∀ x ∈ seen, x ∈ known.records.map fun record => Text.lower record.name)
    (hsteps : known.size < steps + seen.length) :
    Climbs (above? known.records) seen record.name (known.chain steps seen record) := by
  induction steps generalizing seen record with
  | zero =>
    have hle := length_le_size hseen hknown
    omega
  | succ steps ih =>
    have habove := above?_of_find? hrecord
    rw [chain]
    cases hparent : record.parent with
    | none =>
      rw [hparent, Option.map_none] at habove
      exact climbs_nil_iff.mpr (by simp [habove])
    | some parent =>
      rw [hparent, Option.map_some] at habove
      have hlower := ClassRecord.lower_spelled known.records parent
      by_cases hcycle : Text.lower parent ∈ seen
      · simp only [List.contains_eq_mem, hcycle, decide_true, if_true]
        refine climbs_nil_iff.mpr fun upper hupper => ?_
        obtain rfl : spelled known.records parent = upper := by simpa [habove] using hupper
        rwa [hlower]
      · simp only [List.contains_eq_mem, hcycle, decide_false, Bool.false_eq_true, if_false]
        cases hnext : known.find? parent with
        | none =>
          have hfirst : first? known.records parent = none := hnext
          have hspelled : spelled known.records parent = parent := by rw [spelled, hfirst]; rfl
          have htop : above? known.records parent = none := by rw [above?, hfirst]; rfl
          refine climbs_cons_iff.mpr ⟨hspelled ▸ habove, hcycle, climbs_nil_iff.mpr ?_⟩
          simp [htop]
        | some next =>
          have hfirst : first? known.records parent = some next := hnext
          have hspelled : spelled known.records parent = next.name := by rw [spelled, hfirst]; rfl
          rw [hspelled] at habove hlower
          refine climbs_cons_iff.mpr ⟨habove, hlower ▸ hcycle, ?_⟩
          rw [hlower]
          refine ih (find?_name hnext) (List.nodup_cons.mpr ⟨hcycle, hseen⟩) ?_ ?_
          · intro x hx
            rcases List.mem_cons.mp hx with rfl | hx
            · exact isSome_find?_iff.mp (by rw [hnext]; rfl)
            · exact hknown x hx
          · simp only [List.length_cons]
            omega

/-- However many steps a chain is given beyond the number of classes, it is the line that leads
up. -/
theorem chain_lineage {steps : Nat} (h : known.find? name = some record)
    (hsteps : known.size < steps) :
    Lineage (above? known.records) name (known.chain steps [Text.lower record.name] record) := by
  have hlower := ClassRecord.lower_of_first? h
  rw [lineage_iff_climbs, ← hlower,
    Climbs.congr (ClassRecord.above?_congr hlower.symm)]
  refine chain_climbs (find?_name h) (List.nodup_singleton _) ?_ (by simpa using by omega)
  intro x hx
  rw [List.mem_singleton.mp hx, hlower]
  exact isSome_find?_iff.mp (by rw [h]; rfl)

theorem length_le_of_lineage (h : Lineage (above? known.records) name line) :
    line.length ≤ known.size := by
  have hnodup : ((name :: line).dropLast.map Text.lower).Nodup :=
    h.distinct.sublist ((List.dropLast_sublist _).map _)
  have hle := @length_le_size known _ hnodup fun x hx => by
    obtain ⟨y, hy, rfl⟩ := List.mem_map.mp hx
    obtain ⟨parent, hparent⟩ := above_of_mem_dropLast h.parents hy
    obtain ⟨record, hrecord⟩ := ClassRecord.first?_of_above? hparent
    have hfind : known.find? y = some record := hrecord
    exact isSome_find?_iff.mp (by rw [hfind]; rfl)
  simpa using hle

theorem ancestors?_eq_some_iff :
    known.ancestors? name = some line ↔
      (∃ record, known.find? name = some record) ∧ Lineage (above? known.records) name line := by
  unfold ancestors?
  cases h : known.find? name with
  | none => simp
  | some record =>
    have hchain := chain_lineage h (Nat.lt_succ_self known.size)
    simp only [Option.some.injEq, exists_eq', true_and]
    constructor
    · rintro rfl
      exact hchain
    · intro hline
      exact (lineage_iff_climbs.mp hchain).unique (lineage_iff_climbs.mp hline)

/-- Whatever classes are added, a class has no ancestors exactly if none of its name was added.
Otherwise its ancestors are the one line that leads up from it. It has at most as many classes as
there are, and a chain that is given more steps comes to the same end. The case in which the class
is written does not count. -/
theorem ancestors?_insertAll_lineage (added : List ClassRecord) (name : String) :
    let known := insertAll {} added
    (known.ancestors? name = none ↔
        ∀ record ∈ added, Text.lower record.name ≠ Text.lower name) ∧
      (∀ line, known.ancestors? name = some line ↔
        (∃ record ∈ added, Text.lower record.name = Text.lower name) ∧
          Lineage (above? added) name line) ∧
      (∀ line, known.ancestors? name = some line → line.length ≤ known.size ∧
        ∀ record steps, known.find? name = some record → known.size < steps →
          known.chain steps [Text.lower record.name] record = line) ∧
      ∀ other, Text.lower other = Text.lower name →
        known.ancestors? other = known.ancestors? name := by
  intro known
  have hfind : known.find? name = first? added name :=
    congrFun (ClassRecord.first?_insertAll added) name
  have habove : above? known.records = above? added := ClassRecord.above?_insertAll added
  refine ⟨?_, fun line => ?_, fun line hline => ?_, fun other hother => ?_⟩
  · rw [← ClassRecord.first?_eq_none_iff, ← hfind, ancestors?]
    cases known.find? name <;> simp
  · rw [ancestors?_eq_some_iff, hfind, ClassRecord.exists_first?_iff, habove]
  · have hlineage := (ancestors?_eq_some_iff.mp hline).2
    refine ⟨length_le_of_lineage hlineage, fun record steps hrecord hsteps => ?_⟩
    have hchain := chain_lineage hrecord hsteps
    exact (lineage_iff_climbs.mp hchain).unique (lineage_iff_climbs.mp hlineage)
  · simp only [ancestors?, known.find?_congr hother]

-- a class that extends itself, two that extend each other, and one that extends an unknown class
example :
    let known := insertAll {} [⟨"A", some "a"⟩, ⟨"B", some "c"⟩, ⟨"b", none⟩, ⟨"C", some "B"⟩,
      ⟨"D", some "Other"⟩]
    known.ancestors? "a" = some [] ∧ known.ancestors? "b" = some ["C"] ∧
      known.ancestors? "C" = some ["B"] ∧ known.ancestors? "D" = some ["Other"] ∧
        known.ancestors? "other" = none := by
  decide +kernel

end Classes

end Availability
