import Availability.Php.Program
import Availability.Proofs.DeclarationPlaces
import Availability.Proofs.Steps
import Availability.Proofs.TagText

/-!
# What becomes of a declaration

Every declaration has one outcome, which its doc comment and that of its class decide. A file gives
one symbol or one note for each declaration that earns it, in the order of the source, or it fails
with the first version that cannot be read.
-/
namespace Availability

open Php

/-- The value of a tag stands for a version. -/
def Version.IsOfTag (v : Version) (value : String) : Prop :=
  (value = "MU" ∧ v = ⟨3, 0, 0⟩) ∨ Version.ofString? value = some v

theorem Version.ofTag?_eq_some_iff {v : Version} {value : String} :
    Version.ofTag? value = some v ↔ v.IsOfTag value := by
  unfold Version.ofTag? Version.IsOfTag
  by_cases h : value = "MU"
  · have hnone : Version.ofString? "MU" = none := by decide
    simp [h, hnone, eq_comm]
  · simp [h]

theorem Version.ofTag?_eq_none_iff {value : String} :
    Version.ofTag? value = none ↔ ∀ v : Version, ¬v.IsOfTag value := by
  simp only [Option.eq_none_iff_forall_ne_some, ne_eq, Version.ofTag?_eq_some_iff]

namespace Declaration

/-- What becomes of a declaration with a version as it is written, that is deprecated or not, with a
word after the tag for that. -/
inductive Settles (d : Declaration) (raw : Option String) (deprecated : Bool)
    (word : Option String) : Outcome → Prop
  | entry {value : String} {since : Version} : raw = some value → since.IsOfTag value →
      Settles d raw deprecated word (.entry ⟨since, word.bind Version.ofString?⟩)
  | missingDocComment : raw = none → deprecated = false → d.doc = none → d.classDoc = none →
      Settles d raw deprecated word (.omitted .missingDocComment)
  | missingSince : raw = none → deprecated = false → (d.doc ≠ none ∨ d.classDoc ≠ none) →
      Settles d raw deprecated word (.omitted .missingSince)
  | dropped : deprecated = true →
      (∀ value, raw = some value → ∀ since : Version, ¬since.IsOfTag value) →
      Settles d raw deprecated word .dropped
  | invalid {value : String} : raw = some value → (∀ since : Version, ¬since.IsOfTag value) →
      deprecated = false → Settles d raw deprecated word (.invalid value)

/-- What becomes of a declaration by the tags of its doc comment and, where it lacks one, those of
its class. -/
def Earns (d : Declaration) (o : Outcome) : Prop :=
  ∃ own inherited : DocTags, own.Describes d.doc ∧ inherited.Describes d.classDoc ∧
    Settles d (own.since.or inherited.since) (own.deprecated || inherited.deprecated)
      (own.deprecatedValue.or inherited.deprecatedValue) o

/-- The outcome, computed. -/
def settle (d : Declaration) (raw : Option String) (deprecated : Bool) (word : Option String) :
    Outcome :=
  match raw with
  | none =>
    if deprecated then .dropped
    else if d.doc.isNone && d.classDoc.isNone then .omitted .missingDocComment
    else .omitted .missingSince
  | some value =>
    match Version.ofTag? value with
    | none => if deprecated then .dropped else .invalid value
    | some since => .entry ⟨since, word.bind Version.ofString?⟩

theorem outcome_eq (d : Declaration) :
    let own := (d.doc.map DocTags.ofComment).getD {}
    let inherited := (d.classDoc.map DocTags.ofComment).getD {}
    d.outcome = d.settle (own.since.or inherited.since) (own.deprecated || inherited.deprecated)
      (own.deprecatedValue.or inherited.deprecatedValue) :=
  rfl

theorem settles_settle (d : Declaration) (raw : Option String) (deprecated : Bool)
    (word : Option String) : Settles d raw deprecated word (d.settle raw deprecated word) := by
  unfold settle
  cases raw with
  | none =>
    cases deprecated with
    | true => exact .dropped rfl nofun
    | false =>
      by_cases hdocs : d.doc = none ∧ d.classDoc = none
      · simpa [hdocs] using .missingDocComment rfl rfl hdocs.1 hdocs.2
      · have hsome : d.doc ≠ none ∨ d.classDoc ≠ none := by tauto
        simpa [hdocs] using .missingSince rfl rfl hsome
  | some value =>
    cases hversion : Version.ofTag? value with
    | some since =>
      simp only [hversion]
      exact .entry rfl (Version.ofTag?_eq_some_iff.mp hversion)
    | none =>
      simp only [hversion]
      have hnone := Version.ofTag?_eq_none_iff.mp hversion
      cases deprecated with
      | true => exact .dropped rfl fun other hother => Option.some.inj hother ▸ hnone
      | false => exact .invalid rfl hnone rfl

theorem Settles.eq_settle {d : Declaration} {raw : Option String} {deprecated : Bool}
    {word : Option String} {o : Outcome} (h : Settles d raw deprecated word o) :
    o = d.settle raw deprecated word := by
  unfold settle
  cases h with
  | entry hraw hversion => simp [hraw, Version.ofTag?_eq_some_iff.mpr hversion]
  | missingDocComment hraw hdeprecated hdoc hclassDoc => simp [hraw, hdeprecated, hdoc, hclassDoc]
  | missingSince hraw hdeprecated hdocs =>
    have hnot : ¬(d.doc = none ∧ d.classDoc = none) := by tauto
    simp [hraw, hdeprecated, hnot]
  | dropped hdeprecated hnone =>
    cases raw with
    | none => simp [hdeprecated]
    | some value => simp [hdeprecated, Version.ofTag?_eq_none_iff.mpr (hnone value rfl)]
  | invalid hraw hnone hdeprecated =>
    simp [hraw, hdeprecated, Version.ofTag?_eq_none_iff.mpr hnone]

/-- Every declaration has one outcome. -/
theorem earns_iff {d : Declaration} {o : Outcome} : Earns d o ↔ o = d.outcome := by
  constructor
  · rintro ⟨own, inherited, hown, hinherited, hsettles⟩
    obtain rfl := hown.unique (DocTags.describes_getD d.doc)
    obtain rfl := hinherited.unique (DocTags.describes_getD d.classDoc)
    rw [outcome_eq]
    exact hsettles.eq_settle
  · rintro rfl
    rw [outcome_eq]
    exact ⟨_, _, DocTags.describes_getD d.doc, DocTags.describes_getD d.classDoc,
      settles_settle d _ _ _⟩

/-- A symbol that is not looked up on its own. -/
def Excluded (symbol : String) : Prop :=
  symbol ∈ excludedSymbols ∨ ∃ start ∈ excludedStarts, start.toList <+: symbol.toList

theorem isExcluded_iff {d : Declaration} : d.isExcluded = true ↔ Excluded d.symbol := by
  have hstart (start : String) :
      Text.startsWith start.toList d.symbol.toList = true ↔ start.toList <+: d.symbol.toList := by
    simp only [Text.startsWith, Option.isSome_iff_exists, Text.dropStart?_eq_some_iff]
    exact exists_congr fun rest => eq_comm
  simp only [isExcluded, Excluded, Bool.or_eq_true, List.contains_iff_mem, List.any_eq_true, hstart]

/-- The symbol that a declaration gives. -/
def symbol? (d : Declaration) : Outcome → Option ExtractedSymbol
  | .entry e => some ⟨d.symbol, e, d.line⟩
  | _ => none

/-- The note that a declaration gives. -/
def note? (d : Declaration) (file : String) : Outcome → Option Note
  | .omitted why => some ⟨why, d.symbol, file, d.line⟩
  | _ => none

/-- The error that a declaration gives. -/
def failure? (d : Declaration) : Outcome → Option InvalidSince
  | .invalid value => some ⟨value, d.symbol, d.line⟩
  | _ => none

end Declaration

/-- A declaration at its place, with what becomes of it. -/
structure Settled where
  path : Path
  declaration : Declaration
  outcome : Declaration.Outcome

namespace FileSymbols

open Declaration (DeclaredAt Earns Excluded)

theorem add_eq (s : FileSymbols) (d : Declaration) :
    add s d =
      match d.failure? d.outcome with
      | some e => .error e
      | none => .ok { s with
          symbols := s.symbols ++ (d.symbol? d.outcome).toList
          notes := s.notes ++ (d.note? s.file d.outcome).toList } := by
  unfold add
  cases d.outcome <;> simp [Declaration.failure?, Declaration.symbol?, Declaration.note?]

/-- Declarations are added one after another up to the first whose version cannot be read. -/
theorem foldlM_add (s : FileSymbols) (declarations : List Declaration) :
    declarations.foldlM add s =
      match declarations.findSome? fun d => d.failure? d.outcome with
      | some e => .error e
      | none => .ok { s with
          symbols := s.symbols ++ declarations.filterMap fun d => d.symbol? d.outcome
          notes := s.notes ++ declarations.filterMap fun d => d.note? s.file d.outcome } := by
  induction declarations generalizing s with
  | nil => simp
  | cons d declarations ih =>
    rw [List.foldlM_cons, add_eq, List.findSome?_cons, List.filterMap_cons, List.filterMap_cons]
    cases d.failure? d.outcome with
    | some e => rfl
    | none =>
      change declarations.foldlM add _ = _
      rw [ih]
      cases d.symbol? d.outcome <;> cases d.note? s.file d.outcome <;> simp

theorem classes_ofTree {file : String} {tree : Node} {s : FileSymbols}
    (h : ofTree file tree = .ok s) : s.classes = DeclaredClass.ofTree tree := by
  rw [ofTree, foldlM_add] at h
  split at h
  · cases h
  · obtain rfl := Except.ok.inj h
    rfl

/-- Each declaration has one outcome. Those of a file that are not passed over, in the order of the
source, give one symbol, one note or nothing each, or the first that fails makes the file fail. -/
theorem ofTree_outcomes (file : String) (tree : Node) :
    (∀ d : Declaration, ∃! o, Earns d o) ∧
      ∃ settled : List Settled, (settled.map (·.path)).Pairwise (· < ·) ∧
        (∀ s, s ∈ settled ↔ DeclaredAt tree s.path s.declaration ∧
          ¬Excluded s.declaration.symbol ∧ Earns s.declaration s.outcome) ∧
        FileSymbols.ofTree file tree =
          match settled.findSome? fun s => s.declaration.failure? s.outcome with
          | some e => .error e
          | none => .ok {
              file
              symbols := settled.filterMap fun s => s.declaration.symbol? s.outcome
              classes := DeclaredClass.ofTree tree
              notes := settled.filterMap fun s => s.declaration.note? file s.outcome } := by
  refine ⟨fun d =>
    ⟨d.outcome, Declaration.earns_iff.mpr rfl, fun o => Declaration.earns_iff.mp⟩, ?_⟩
  obtain ⟨found, hfound, hordered, hmem⟩ := Declaration.exists_places tree
  let kept := found.filter fun x => !x.2.isExcluded
  let settled : List Settled := kept.map fun x => ⟨x.1, x.2, x.2.outcome⟩
  have hkept (p : Path) (d : Declaration) :
      (p, d) ∈ kept ↔ DeclaredAt tree p d ∧ ¬Excluded d.symbol := by
    rw [List.mem_filter, hmem, ← Declaration.isExcluded_iff]
    simp
  refine ⟨settled, ?_, ?_, ?_⟩
  · rw [List.map_map, List.pairwise_map]
    exact (List.pairwise_map.mp hordered).sublist List.filter_sublist
  · rintro ⟨p, d, o⟩
    rw [← and_assoc, ← hkept, Declaration.earns_iff]
    constructor
    · intro hs
      obtain ⟨x, hx, heq⟩ := List.mem_map.mp hs
      obtain ⟨rfl, rfl, rfl⟩ := Settled.mk.inj heq
      exact ⟨hx, rfl⟩
    · rintro ⟨hx, ho⟩
      obtain rfl : o = d.outcome := ho
      exact List.mem_map.mpr ⟨(p, d), hx, rfl⟩
  · have hdeclarations : (Declaration.ofTree tree).filter (fun d => !d.isExcluded) =
        kept.map Prod.snd := by
      rw [← hfound, List.filter_map]
      rfl
    rw [FileSymbols.ofTree, hdeclarations, foldlM_add]
    simp only [settled, List.findSome?_map, List.filterMap_map, List.nil_append, Function.comp_def]

-- a class lends its tags to its methods, but not to those of a class inside of them
example :
    ofTree "a.php" (Php.parseBytes (Text.encode
      ("<?php /** @since 2.0 */ class A " ++
        "\x7bfunction f()\x7bnew class\x7bfunction g()\x7b\x7d\x7d;\x7d\x7d"))) =
    .ok {
      file := "a.php"
      symbols := [⟨"A::f", ⟨⟨2, 0, 0⟩, none⟩, 1⟩]
      classes := [⟨"A", none, 1⟩]
      notes := [] } := by
  decide +kernel

end FileSymbols

end Availability
