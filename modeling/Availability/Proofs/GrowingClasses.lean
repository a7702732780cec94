import Availability.Proofs.Lineage

/-!
# Learning more classes

A class that is added changes nothing about the classes that are known. A line that led up to an
unknown class may go on from there, and that class may get another spelling; as far as a line runs
through known classes it stays as it is. So what a project declares has no influence on the lines
inside of the classes of a table.
-/
namespace Availability

namespace Classes

open ClassRecord (first? above? spelled)

/-- Whether there is a class of the name, in whatever case. -/
def knows (known : Classes) (name : String) : Bool :=
  (known.find? name).isSome

/-- Whatever was found is found later, too. -/
def Grows (known later : Classes) : Prop :=
  ∀ name record, known.find? name = some record → later.find? name = some record

theorem grows_insertAll (known : Classes) (declared : List ClassRecord) :
    known.Grows (known.insertAll declared) := by
  intro name record hrecord
  rw [find?_insertAll, hrecord, Option.some_or]

theorem grows_insert (known : Classes) (name : String) (parent : Option String) :
    known.Grows (known.insert name parent).1 :=
  known.grows_insertAll [⟨name, parent⟩]

theorem knows_iff {known : Classes} {name : String} :
    known.knows name = true ↔ ∃ record, known.find? name = some record :=
  Option.isSome_iff_exists

theorem knows_congr {known : Classes} {name other : String}
    (h : Text.lower name = Text.lower other) : known.knows name = known.knows other := by
  rw [knows, known.find?_congr h, knows]

namespace Grows

variable {known later : Classes} {seen line line' : List String} {name name' x y : String}

/-- Known classes keep their spelling. -/
theorem spelled_eq (h : known.Grows later) (hname : known.knows name = true) :
    spelled later.records name = spelled known.records name := by
  obtain ⟨record, hrecord⟩ := knows_iff.mp hname
  have hfirst : first? known.records name = some record := hrecord
  have hlater : first? later.records name = some record := h name record hrecord
  rw [spelled, hlater, spelled, hfirst]

/-- Above a class stays the class that was there, apart from the spelling of an unknown one. -/
theorem above?_eq_some (h : known.Grows later) (habove : above? known.records x = some y) :
    ∃ y', above? later.records x = some y' ∧ Text.lower y' = Text.lower y ∧
      (known.knows y = true → y' = y) := by
  obtain ⟨record, hrecord, hspelled⟩ := Option.bind_eq_some_iff.mp habove
  obtain ⟨parent, hparent, rfl⟩ := Option.map_eq_some_iff.mp hspelled
  have hknown : known.find? x = some record := hrecord
  refine ⟨spelled later.records parent, ?_, ?_, fun hy => h.spelled_eq ?_⟩
  · rw [above?_of_find? (h x record hknown), hparent, Option.map_some]
  · rw [ClassRecord.lower_spelled, ClassRecord.lower_spelled]
  · rwa [knows_congr (ClassRecord.lower_spelled known.records parent)] at hy

/-- A known class does not get a class above it. -/
theorem exists_above? (h : known.Grows later) (hx : known.knows x = true)
    (habove : above? later.records x = some y) : ∃ y', above? known.records x = some y' := by
  obtain ⟨record, hrecord⟩ := knows_iff.mp hx
  rw [above?_of_find? (h x record hrecord)] at habove
  obtain ⟨parent, hparent, -⟩ := Option.map_eq_some_iff.mp habove
  exact ⟨_, by rw [above?_of_find? hrecord, hparent, Option.map_some]⟩

/-- A step that a line takes is taken later, too. -/
theorem climbs_cons (h : known.Grows later) (hname : Text.lower name' = Text.lower name)
    (hline : Climbs (above? known.records) seen name (x :: line))
    (hline' : Climbs (above? later.records) seen name' line') :
    ∃ x' rest, line' = x' :: rest ∧ Text.lower x' = Text.lower x ∧
      (known.knows x = true → x' = x) ∧
        Climbs (above? known.records) (Text.lower x :: seen) x line ∧
          Climbs (above? later.records) (Text.lower x :: seen) x' rest := by
  obtain ⟨habove, hnew, hrest⟩ := climbs_cons_iff.mp hline
  obtain ⟨x', habove', hlower, hspelling⟩ := h.above?_eq_some habove
  rw [← ClassRecord.above?_congr hname] at habove'
  cases line' with
  | nil =>
    have hseen := climbs_nil_iff.mp hline' x' habove'
    exact absurd (hlower ▸ hseen) hnew
  | cons first rest =>
    obtain ⟨hfirst, -, hrest'⟩ := climbs_cons_iff.mp hline'
    obtain rfl : x' = first := by simpa [habove'] using hfirst
    exact ⟨x', rest, rfl, hlower, hspelling, hrest, hlower ▸ hrest'⟩

/-- A line begins with the classes of the line before, in whatever case. -/
theorem lower_isPrefix (h : known.Grows later) (hname : Text.lower name' = Text.lower name)
    (hline : Climbs (above? known.records) seen name line)
    (hline' : Climbs (above? later.records) seen name' line') :
    line.map Text.lower <+: line'.map Text.lower := by
  induction line generalizing seen name name' line' with
  | nil => exact List.nil_prefix
  | cons x line ih =>
    obtain ⟨x', rest, rfl, hlower, -, hline, hline'⟩ := h.climbs_cons hname hline hline'
    rw [List.map_cons, List.map_cons, hlower, List.prefix_cons_inj]
    exact ih hlower hline hline'

/-- The known classes at the start of a line stay as they are spelled. -/
theorem takeWhile_isPrefix (h : known.Grows later) (hname : Text.lower name' = Text.lower name)
    (hline : Climbs (above? known.records) seen name line)
    (hline' : Climbs (above? later.records) seen name' line') :
    line.takeWhile known.knows <+: line' := by
  induction line generalizing seen name name' line' with
  | nil => exact List.nil_prefix
  | cons x line ih =>
    obtain ⟨x', rest, rfl, hlower, hspelling, hline, hline'⟩ := h.climbs_cons hname hline hline'
    by_cases hx : known.knows x = true
    · rw [List.takeWhile_cons_of_pos hx, hspelling hx, List.prefix_cons_inj]
      exact ih hlower hline hline'
    · rw [List.takeWhile_cons_of_neg hx]
      exact List.nil_prefix

/-- A line of known classes only stays as it is. -/
theorem line_eq (h : known.Grows later) (hname : Text.lower name' = Text.lower name)
    (hline : Climbs (above? known.records) seen name line)
    (hline' : Climbs (above? later.records) seen name' line')
    (hknown : ∀ y ∈ name :: line, known.knows y = true) : line' = line := by
  induction line generalizing seen name name' line' with
  | nil =>
    cases line' with
    | nil => rfl
    | cons x' rest =>
      -- the class above would have been there before, so it was seen before
      obtain ⟨habove', hnew, -⟩ := climbs_cons_iff.mp hline'
      rw [ClassRecord.above?_congr hname] at habove'
      obtain ⟨x, habove⟩ := h.exists_above? (hknown name List.mem_cons_self) habove'
      obtain ⟨y, hy, hlower, -⟩ := h.above?_eq_some habove
      obtain rfl : x' = y := by simpa [habove'] using hy
      exact absurd (hlower ▸ climbs_nil_iff.mp hline x habove) hnew
  | cons x line ih =>
    obtain ⟨x', rest, rfl, hlower, hspelling, hline, hline'⟩ := h.climbs_cons hname hline hline'
    rw [hspelling (hknown x (by simp)),
      ih hlower hline hline' fun y hy => hknown y (List.mem_cons_of_mem name hy)]

/-- The ancestors of a known class and what later becomes of them. -/
theorem ancestors? (h : known.Grows later) (hline : known.ancestors? name = some line) :
    ∃ line', later.ancestors? name = some line' ∧
      line.map Text.lower <+: line'.map Text.lower ∧ line.takeWhile known.knows <+: line' ∧
        ((∀ x ∈ line, known.knows x = true) → line' = line) := by
  obtain ⟨⟨record, hrecord⟩, hlineage⟩ := ancestors?_eq_some_iff.mp hline
  have hlater := h name record hrecord
  have hlineage' := chain_lineage hlater (Nat.lt_succ_self later.size)
  refine ⟨_, ancestors?_eq_some_iff.mpr ⟨⟨record, hlater⟩, hlineage'⟩, ?_⟩
  rw [lineage_iff_climbs] at hlineage hlineage'
  refine ⟨h.lower_isPrefix rfl hlineage hlineage', h.takeWhile_isPrefix rfl hlineage hlineage', ?_⟩
  intro hknown
  refine h.line_eq rfl hlineage hlineage' fun y hy => ?_
  rcases List.mem_cons.mp hy with rfl | hy
  · exact knows_iff.mpr ⟨record, hrecord⟩
  · exact hknown y hy

end Grows

/-- A class that is added makes lines of ancestors longer at most, and one whose name is known is
not added. Whatever is declared beside the classes of a table, the ancestors of its classes begin
with the ancestors that they have by the table: with the same names as far as the table knows the
classes, and without any change if it knows all of them. -/
theorem ancestors?_insert_extends (known : Classes) (name : String) (parent : Option String) :
    (∀ c line, known.ancestors? c = some line →
        ∃ line', (known.insert name parent).1.ancestors? c = some line' ∧
          line.map Text.lower <+: line'.map Text.lower) ∧
      ((known.insert name parent).2 = false ↔
        ∃ record ∈ known.records, Text.lower record.name = Text.lower name) ∧
      ((∃ record ∈ known.records, Text.lower record.name = Text.lower name) →
        ∀ c, (known.insert name parent).1.ancestors? c = known.ancestors? c) ∧
      ∀ (table : SymbolTable) (declared : List ClassRecord) c line,
        (ofTable table).ancestors? c = some line →
          ∃ line', ((ofTable table).insertAll declared).ancestors? c = some line' ∧
            line.map Text.lower <+: line'.map Text.lower ∧
            line.takeWhile (ofTable table).knows <+: line' ∧
            ((∀ x ∈ line, (ofTable table).knows x = true) → line' = line) := by
  have hexists : (∃ record ∈ known.records, Text.lower record.name = Text.lower name) ↔
      (known.find? name).isSome = true := by
    rw [isSome_find?_iff, List.mem_map]
  rw [hexists]
  refine ⟨fun c line hline => ?_, ?_, fun hknown c => ?_, fun table declared c line hline => ?_⟩
  · obtain ⟨line', hline', hprefix, -⟩ := (known.grows_insert name parent).ancestors? hline
    exact ⟨line', hline', hprefix⟩
  · unfold insert
    split <;> simp_all
  · rw [insert, if_pos hknown]
  · exact ((ofTable table).grows_insertAll declared).ancestors? hline

-- a line that goes on behind an unknown class, one that closes to a cycle, and one that stays
example :
    let known := ofTable { classes := [("A", ⟨some "base"⟩), ("B", ⟨some "a"⟩), ("C", {})] }
    let later := known.insertAll [⟨"Base", some "B"⟩, ⟨"c", some "A"⟩]
    known.ancestors? "b" = some ["A", "base"] ∧ later.ancestors? "b" = some ["A", "Base"] ∧
      known.ancestors? "a" = some ["base"] ∧ later.ancestors? "a" = some ["Base", "B"] ∧
        known.ancestors? "c" = some [] ∧ later.ancestors? "c" = some [] := by
  decide +kernel

end Classes

end Availability
