import Availability.Proofs.ReportText
import Availability.Report.Sarif

/-!
# What the documents of an audit say

A document is looked into by the names of its members, without regard to how it is decoded. A report
and a log say in this way what they were made from: the report its findings, with those that are
suppressed, and the log its results and the names of its rules.
-/
namespace Availability

namespace Json

namespace Value

/-- The value under a name. -/
def member? (name : String) : Value → Option Value
  | .object members _ => (members.find? (·.1.toOption == some name)).map (·.2)
  | _ => none

/-- The value at the end of names. -/
def at? : List String → Value → Option Value
  | [], v => some v
  | name :: rest, v => (v.member? name).bind (at? rest)

def text? : Value → Option String
  | .string text => text
  | _ => none

def natural? : Value → Option Nat
  | .number text => naturalValue? text
  | _ => none

def bool? : Value → Option Bool
  | .bool b => some b
  | _ => none

def items? : Value → Option (List Value)
  | .array items none => some items
  | _ => none

/-- The items of a list, all of which are read in one way. -/
def listOf? {α : Type} (read? : Value → Option α) (v : Value) : Option (List α) :=
  v.items?.bind (·.mapM read?)

@[simp] theorem member?_record (name : String) (members : List (String × Value)) :
    (record members).member? name = Keyed.get? name members := by
  rw [record, member?, Keyed.get?, List.find?_map]
  simp [Function.comp_def, Except.toOption]

@[simp] theorem at?_nil (v : Value) : v.at? [] = some v := rfl

@[simp] theorem at?_cons (name : String) (rest : List String) (v : Value) :
    v.at? (name :: rest) = (v.member? name).bind (at? rest) := rfl

@[simp] theorem text?_text (s : String) : (text s).text? = some s := rfl

@[simp] theorem natural?_natural (n : Nat) : (natural n).natural? = some n :=
  naturalValue?_toDigits n

@[simp] theorem bool?_bool (b : Bool) : (Value.bool b).bool? = some b := rfl

@[simp] theorem items?_list (items : List Value) : (list items).items? = some items := rfl

theorem listOf?_list {α β : Type} {read? : Value → Option β} {encode : α → Value} {f : α → β}
    (h : ∀ a, read? (encode a) = some (f a)) (items : List α) :
    (list (items.map encode)).listOf? read? = some (items.map f) := by
  rw [listOf?, items?_list, Option.bind_some]
  induction items with
  | nil => rfl
  | cons a items ih => simp [h, ih]

end Value

/-- The value of a text that is a document. -/
def document? (text : String) : Option Value :=
  match read text with
  | (v, false) => some v
  | _ => none

end Json

open Json

namespace Report

def Item.ofJson? (v : Value) : Option Item := do
  return {
    rule := ← (← v.member? "rule").text?
    file := ← (← v.member? "file").text?
    line := ← (← v.member? "line").natural?
    symbol := ← (← v.member? "symbol").text?
    since := ← (← v.member? "since").text?
    message := ← (← v.member? "message").text? }

/-- A directive says nothing of a reason that it lacks. -/
def Directive.ofJson? (v : Value) : Option Directive := do
  return {
    rule := ← (← v.member? "rule").text?
    reason := ← ((v.member? "reason").getD (.text "")).text?
    file := ← (← v.member? "file").text?
    line := ← (← v.member? "line").natural?
    reach := ← (← v.member? "type").text? }

def SuppressedItem.ofJson? (v : Value) : Option SuppressedItem := do
  return {
    diagnostic := ← Item.ofJson? (← v.member? "diagnostic")
    suppression := ← Directive.ofJson? (← v.member? "suppression") }

/-- What a report says of an audit. -/
structure Contents where
  passed : Bool
  diagnostics : List Item
  suppressed : List SuppressedItem
  suppressedCount : Nat
  deriving DecidableEq

/-- A report says nothing of suppressed findings if it has none. -/
def Contents.ofJson? (v : Value) : Option Contents := do
  return {
    passed := ← (← v.member? "passed").bool?
    diagnostics := ← (← v.member? "diagnostics").listOf? Item.ofJson?
    suppressed := ← ((v.member? "suppressed").getD (.list [])).listOf? SuppressedItem.ofJson?
    suppressedCount := ← (← v.member? "suppressed_count").natural? }

def Contents.ofText? (text : String) : Option Contents :=
  (document? text).bind ofJson?

def contents (r : Report) : Contents where
  passed := r.passed
  diagnostics := r.diagnostics
  suppressed := r.suppressed
  suppressedCount := r.suppressedCount

@[simp] theorem Item.ofJson?_toJson (i : Item) : ofJson? i.toJson = some i := by
  simp [ofJson?, toJson, Keyed.get?_cons]

@[simp] theorem Directive.ofJson?_toJson (d : Directive) : ofJson? d.toJson = some d := by
  obtain ⟨rule, reason, file, line, reach⟩ := d
  by_cases hreason : reason = ""
  · simp [ofJson?, toJson, Keyed.get?_cons, hreason]
  · simp [ofJson?, toJson, Keyed.get?_cons, hreason]

@[simp] theorem SuppressedItem.ofJson?_toJson (s : SuppressedItem) :
    ofJson? s.toJson = some s := by
  simp [ofJson?, toJson, Keyed.get?_cons]

theorem get?_unlessEmpty (other name : String) (items : List Value) :
    Keyed.get? other (unlessEmpty name items) =
      if other = name ∧ items ≠ [] then some (.list items) else none := by
  unfold unlessEmpty
  by_cases hitems : items = []
  · simp [hitems]
  · simp [hitems, Keyed.get?_cons]

@[simp] theorem Contents.ofJson?_toJson (r : Report) : ofJson? r.toJson = some r.contents := by
  have hdiagnostics := Value.listOf?_list Item.ofJson?_toJson r.diagnostics
  have hsuppressed := Value.listOf?_list SuppressedItem.ofJson?_toJson r.suppressed
  have hmember : ((r.toJson.member? "suppressed").getD (.list [])) =
      .list (r.suppressed.map SuppressedItem.toJson) := by
    by_cases hempty : r.suppressed = [] <;>
      simp [toJson, Keyed.get?_append, Keyed.get?_cons, get?_unlessEmpty, hempty]
  rw [ofJson?, hmember]
  simp [toJson, Keyed.get?_append, Keyed.get?_cons, get?_unlessEmpty, hdiagnostics, hsuppressed,
    contents]

end Report

namespace Sarif

/-- A result is at one place. -/
def Result.ofJson? (v : Value) : Option Result := do
  let [place] ← (← v.member? "locations").items? | none
  return {
    rule := ← (← v.member? "ruleId").text?
    message := ← (← v.at? ["message", "text"]).text?
    file := ← (← place.at? ["physicalLocation", "artifactLocation", "uri"]).text?
    line := ← (← place.at? ["physicalLocation", "region", "startLine"]).natural? }

def ruleId? (v : Value) : Option String := do
  (← v.member? "id").text?

/-- What a log says: the names of its rules, and its results. -/
structure Contents where
  rules : List String
  results : List Result
  deriving DecidableEq

/-- A log is of one run. -/
def Contents.ofJson? (v : Value) : Option Contents := do
  let [run] ← (← v.member? "runs").items? | none
  return {
    rules := ← (← run.at? ["tool", "driver", "rules"]).listOf? ruleId?
    results := ← (← run.member? "results").listOf? Result.ofJson? }

def Contents.ofText? (text : String) : Option Contents :=
  (document? text).bind ofJson?

def Log.contents (log : Log) : Contents where
  rules := log.issues.map Issue.name
  results := log.results

@[simp] theorem plain_ruleJson (i : Issue) : (ruleJson i).Plain := by
  simp [ruleJson, messageJson, level]

@[simp] theorem Result.plain_toJson (r : Result) : r.toJson.Plain := by
  simp [toJson, locationJson, messageJson, level]

theorem Log.plain_toJson (log : Log) : log.toJson.Plain := by
  simp [toJson]

@[simp] theorem ruleId?_ruleJson (i : Issue) : ruleId? (ruleJson i) = some i.name := by
  simp [ruleId?, ruleJson, Keyed.get?_cons]

@[simp] theorem Result.ofJson?_toJson (r : Result) : ofJson? r.toJson = some r := by
  simp [ofJson?, toJson, locationJson, messageJson, level, Keyed.get?_cons]

@[simp] theorem Contents.ofJson?_toJson (log : Log) : ofJson? log.toJson = some log.contents := by
  have hrules := Value.listOf?_list ruleId?_ruleJson log.issues
  have hresults := Value.listOf?_list Result.ofJson?_toJson log.results
  simp [ofJson?, Log.toJson, Keyed.get?_cons, hrules, hresults, Log.contents]

end Sarif

end Availability
