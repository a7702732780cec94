import Availability.Proofs.TableText
import Availability.Report.Json

/-!
# Which reports are read back

Decoding undoes encoding for a report, except in one place: an empty reason is left out of the text,
and a suppression without a reason is refused. The lists that are left out when they are empty are
restored. The numbers of a report are machine words, and a greater one is refused as well.
-/
namespace Availability

namespace Json

/-- The digits of a number start with a zero for zero only. -/
theorem head?_toDigits_eq_zero_iff (n : Nat) :
    (Nat.toDigits 10 n).head? = some '0' ↔ n = 0 := by
  induction n using Nat.strongRecOn with
  | ind n ih =>
    by_cases hsmall : n < 10
    · simp [Nat.toDigits_of_lt_base hsmall, Nat.digitChar_eq_zero]
    · have hfirst := ih (n / 10) (by omega)
      rw [Nat.toDigits_of_base_le (by decide) (by omega), List.head?_append_of_ne_nil _
        Nat.toDigits_ne_nil, hfirst]
      omega

theorem isNumeral_toDigits (n : Nat) : IsNumeral (Nat.toDigits 10 n) where
  digits _ := Version.isDigit_of_mem_toDigits
  ne_nil := Nat.toDigits_ne_nil
  zero h := by
    rw [(head?_toDigits_eq_zero_iff n).mp h]
    rfl

@[simp] theorem plain_natural (n : Nat) : (Value.natural n).Plain := by
  simpa [Value.natural, Value.Plain] using isNumeral_toDigits n

theorem naturalValue?_toDigits (n : Nat) :
    naturalValue? (String.ofList (Nat.toDigits 10 n)) = some n := by
  have hall : (Nat.toDigits 10 n).all Char.isDigit = true :=
    List.all_eq_true.mpr fun _ => Version.isDigit_of_mem_toDigits
  unfold naturalValue?
  rw [String.toList_ofList, if_pos hall]
  exact congrArg some (Version.digitsValue_toDigits n)

theorem decodeNatural_natural {n : Nat} (h : n < naturalBound) :
    decodeNatural (.natural n) = .ok n := by
  simp [decodeNatural, Value.natural, naturalValue?_toDigits, h]

section

variable {α : Type} {decode : Decoder α} {encode : α → Value} {items : List α}

variable {p : α → Prop} [DecidablePred p] {fault : Fault}

/-- A list is read if all its items are, and fails like an item of it that is not. -/
theorem decodeItems_encode
    (hdecode : ∀ a ∈ items, decode (encode a) = if p a then .ok a else .error fault) :
    decodeItems decode (items.map encode) =
      if ∀ a ∈ items, p a then .ok items else .error fault := by
  induction items with
  | nil => simp [decodeItems]
  | cons a items ih =>
    have hfirst := hdecode a List.mem_cons_self
    have hmore := ih fun other hother => hdecode other (List.mem_cons_of_mem a hother)
    simp only [List.map_cons, decodeItems, hfirst, hmore, List.forall_mem_cons]
    by_cases ha : p a
    · by_cases hitems : ∀ other ∈ items, p other
      · rw [if_pos ha, if_pos hitems, if_pos ⟨ha, hitems⟩]
        rfl
      · rw [if_pos ha, if_neg hitems, if_neg fun hall => hitems hall.2]
        rfl
    · have hsome : ¬(p a ∧ ∀ other ∈ items, p other) := fun hall => ha hall.1
      rw [if_neg ha, if_neg hsome]
      rfl

theorem decodeList_encode
    (hdecode : ∀ a ∈ items, decode (encode a) = if p a then .ok a else .error fault) :
    decodeList decode (.list (items.map encode)) =
      if ∀ a ∈ items, p a then .ok items else .error fault := by
  simp only [decodeList, Value.list, decodeItems_encode hdecode]
  split <;> rfl

theorem decodeList_encode_ok (hdecode : ∀ a ∈ items, decode (encode a) = .ok a) :
    decodeList decode (.list (items.map encode)) = .ok items := by
  have hlist : decodeList decode (.list (items.map encode)) =
      if ∀ a ∈ items, True then .ok items else .error .mismatch :=
    decodeList_encode fun a ha => (hdecode a ha).trans (if_pos trivial).symm
  simpa using hlist

end

end Json

open Json

namespace Report

namespace Item

@[simp] theorem plain_toJson (i : Item) : i.toJson.Plain := by
  simp [toJson]

theorem decode_toJson {i : Item} (h : i.line < naturalBound) : decode i.toJson = .ok i := by
  have hline := decodeNatural_natural h
  simp [decode, toJson, decodeRecord, Value.record, fields, hline]

end Item

namespace Directive

@[simp] theorem plain_toJson (d : Directive) : d.toJson.Plain := by
  by_cases hreason : d.reason = "" <;> simp [toJson, hreason]

/-- What is written without a reason is refused. -/
theorem decode_toJson {d : Directive} (h : d.line < naturalBound) :
    decode d.toJson = if d.reason ≠ "" then .ok d else .error .mismatch := by
  have hline := decodeNatural_natural h
  by_cases hreason : d.reason = "" <;>
    simp [decode, toJson, hreason, decodeRecord, Value.record, fields, hline]

end Directive

namespace SuppressedItem

@[simp] theorem plain_toJson (s : SuppressedItem) : s.toJson.Plain := by
  simp [toJson]

theorem decode_toJson {s : SuppressedItem} (hitem : s.diagnostic.line < naturalBound)
    (hdirective : s.suppression.line < naturalBound) :
    decode s.toJson = if s.suppression.reason ≠ "" then .ok s else .error .mismatch := by
  have hdiagnostic := Item.decode_toJson hitem
  have hsuppression := Directive.decode_toJson hdirective
  by_cases hreason : s.suppression.reason = "" <;>
    simp [decode, toJson, hdiagnostic, hsuppression, hreason, decodeRecord, Value.record, fields]

end SuppressedItem

/-- The numbers of a report fit into 64 bits. -/
structure Fits (r : Report) : Prop where
  filesScanned : r.filesScanned < naturalBound
  suppressedCount : r.suppressedCount < naturalBound
  diagnostics : ∀ i ∈ r.diagnostics, i.line < naturalBound
  suppressed : ∀ s ∈ r.suppressed,
    s.diagnostic.line < naturalBound ∧ s.suppression.line < naturalBound

theorem plain_toJson (r : Report) : r.toJson.Plain := by
  by_cases hsuppressed : r.suppressed = [] <;> by_cases hskipped : r.skipped = [] <;>
    simp [toJson, unlessEmpty, hsuppressed, hskipped]

theorem decode_toJson {r : Report} (h : r.Fits) :
    decode r.toJson =
      if ∀ s ∈ r.suppressed, s.suppression.reason ≠ "" then .ok r else .error .mismatch := by
  have hscanned := decodeNatural_natural h.filesScanned
  have hcount := decodeNatural_natural h.suppressedCount
  have hdiagnostics := decodeList_encode_ok fun i hi => Item.decode_toJson (h.diagnostics i hi)
  have hsuppressed := decodeList_encode fun s hs =>
    SuppressedItem.decode_toJson (h.suppressed s hs).1 (h.suppressed s hs).2
  have hskipped : decodeList decodeString (.list (r.skipped.map Value.text)) = .ok r.skipped :=
    decodeList_encode_ok fun _ _ => rfl
  -- The lists are known by what they decode to only.
  unfold toJson unlessEmpty
  generalize Value.list (r.diagnostics.map _) = diagnostics at hdiagnostics ⊢
  generalize Value.list (r.suppressed.map _) = suppressed at hsuppressed ⊢
  generalize Value.list (r.skipped.map _) = skipped at hskipped ⊢
  simp only [List.isEmpty_map, List.isEmpty_iff]
  by_cases hreasons : ∀ s ∈ r.suppressed, s.suppression.reason ≠ ""
  · rw [if_pos hreasons] at hsuppressed ⊢
    rcases r with ⟨_, _, _, _, _, _, _, _ | ⟨_, _⟩, _, _ | ⟨_, _⟩⟩ <;>
      simp [decode, decodeRecord, Value.record, fields, hscanned, hcount, hdiagnostics,
        hsuppressed, hskipped]
  · have hsome : r.suppressed ≠ [] := by
      intro hempty
      simp [hempty] at hreasons
    rw [if_neg hreasons] at hsuppressed ⊢
    simp [decode, decodeRecord, Value.record, fields, hscanned, hdiagnostics, hsuppressed, hsome]

theorem ofText_toText {r : Report} (h : r.Fits) :
    ofText r.toText =
      if ∀ s ∈ r.suppressed, s.suppression.reason ≠ "" then .ok r else .error .mismatch := by
  have hread := read_render_append r.plain_toJson 0
  simp only [List.replicate_zero, String.ofList_nil, String.append_empty] at hread
  simp only [ofText, toText, decodeText, hread, decode_toJson h]
  split <;> rfl

end Report

/-- The numbers of an audit fit into 64 bits. -/
structure Audit.Fits (a : Audit) : Prop where
  scanned : a.scanned < naturalBound
  suppressedCount : a.suppressed.length < naturalBound
  diagnostics : ∀ d ∈ a.diagnostics, d.line < naturalBound
  suppressed : ∀ s ∈ a.suppressed,
    s.diagnostic.line < naturalBound ∧ s.suppression.line < naturalBound

instance (a : Audit) : Decidable a.Fits :=
  decidable_of_iff
    ((a.scanned < naturalBound ∧ a.suppressed.length < naturalBound) ∧
      (∀ d ∈ a.diagnostics, d.line < naturalBound) ∧
        ∀ s ∈ a.suppressed,
          s.diagnostic.line < naturalBound ∧ s.suppression.line < naturalBound)
    ⟨fun ⟨⟨hscanned, hcount⟩, hdiagnostics, hsuppressed⟩ =>
      ⟨hscanned, hcount, hdiagnostics, hsuppressed⟩,
      fun h => ⟨⟨h.scanned, h.suppressedCount⟩, h.diagnostics, h.suppressed⟩⟩

namespace Report

theorem fits_ofAudit (heading : Heading) {audit : Audit} (h : audit.Fits) :
    (ofAudit heading audit).Fits where
  filesScanned := h.scanned
  suppressedCount := h.suppressedCount
  diagnostics := List.forall_mem_map.mpr h.diagnostics
  suppressed := List.forall_mem_map.mpr h.suppressed

theorem forall_reason_ofAudit (heading : Heading) (audit : Audit) :
    (∀ s ∈ (ofAudit heading audit).suppressed, s.suppression.reason ≠ "") ↔
      ∀ s ∈ audit.suppressed, s.suppression.reason ≠ "" :=
  List.forall_mem_map

/-- The report of an audit is read back from its text with all its fields, whichever of its lists
are empty, if every suppression in it has a reason. Otherwise its text is refused. -/
theorem read_back_of_audit (heading : Heading) {audit : Audit} (h : audit.Fits) :
    ofText (ofAudit heading audit).toText =
      if ∀ s ∈ audit.suppressed, s.suppression.reason ≠ "" then .ok (ofAudit heading audit)
      else .error .mismatch := by
  rw [ofText_toText (fits_ofAudit heading h)]
  exact if_congr (forall_reason_ofAudit heading audit) rfl rfl

/-- The audit of a call that is silenced by a directive with the given rule and reason. -/
def silenced (ruleAndReason : String) : Audit :=
  .ofFile (Suppression.ofSource "a.php" ("<?php\nwp_new(); // wpcompat:ignore " ++ ruleAndReason))
    [⟨.functionNotAvailable, "wp_new() is only available since WordPress version 6.1.0.", "a.php",
      2, "wp_new", ⟨6, 1, 0⟩⟩]

theorem read_back_of_audit_polyfilled :
    let heading : Heading := ⟨"/p", "WordPress", ⟨6, 0, 0⟩⟩
    let audit := (silenced "* - \"polyfilled\"").append (.ofUnreadable "b.php")
    audit.Fits ∧ audit.diagnostics = [] ∧ audit.skipped = ["b.php"] ∧
    audit.suppressed.map (·.suppression.reason) = ["\"polyfilled\""] ∧
    ofText (ofAudit heading audit).toText = .ok (ofAudit heading audit) := by
  intro heading audit
  have hfits : audit.Fits := by decide +kernel
  have hreasons : ∀ s ∈ audit.suppressed, s.suppression.reason ≠ "" := by decide +kernel
  refine ⟨hfits, by decide +kernel, by decide +kernel, by decide +kernel, ?_⟩
  exact (read_back_of_audit heading hfits).trans (if_pos hreasons)

/-- A directive without a reason silences a call, and the report that tells of it is not read
back. -/
theorem not_read_back_without_reason :
    (silenced "*").Fits ∧
    (silenced "*").suppressed.map (·.suppression) = [⟨"*", "", "a.php", 2, .line⟩] ∧
    ∀ heading, ofText (ofAudit heading (silenced "*")).toText = .error .mismatch := by
  have hfits : (silenced "*").Fits := by decide +kernel
  have hreason : ¬ ∀ s ∈ (silenced "*").suppressed, s.suppression.reason ≠ "" := by decide +kernel
  refine ⟨hfits, by decide +kernel, fun heading => ?_⟩
  rw [ofText_toText (fits_ofAudit heading hfits)]
  exact if_neg (mt (forall_reason_ofAudit heading _).mp hreason)

end Report

end Availability
