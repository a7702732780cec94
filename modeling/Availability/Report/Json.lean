import Availability.Json.Decode
import Availability.Json.Printer
import Availability.Report

/-!
# Reports as JSON

Empty lists of suppressed diagnostics and of skipped files are left out, and so is an empty reason.
-/
namespace Availability.Report

open Json

namespace Item

def toJson (i : Item) : Value :=
  .record [("rule", .text i.rule), ("file", .text i.file), ("line", .natural i.line),
    ("symbol", .text i.symbol), ("since", .text i.since), ("message", .text i.message)]

structure Draft where
  rule : Option String := none
  file : Option String := none
  line : Option Nat := none
  symbol : Option String := none
  since : Option String := none
  message : Option String := none

def fields : List (RecordField Draft) := [
  .of "rule" (·.rule) (fun d a => { d with rule := some a }) decodeString,
  .of "file" (·.file) (fun d a => { d with file := some a }) decodeString,
  .of "line" (·.line) (fun d a => { d with line := some a }) decodeNatural,
  .of "symbol" (·.symbol) (fun d a => { d with symbol := some a }) decodeString,
  .of "since" (·.since) (fun d a => { d with since := some a }) decodeString,
  .of "message" (·.message) (fun d a => { d with message := some a }) decodeString]

def decode : Decoder Item :=
  decodeRecord fields {} fun d => do
    return ⟨← required d.rule, ← required d.file, ← required d.line, ← required d.symbol,
      ← required d.since, ← required d.message⟩

end Item

namespace Directive

def toJson (d : Directive) : Value :=
  .record <|
    [("rule", .text d.rule)] ++ (if d.reason.isEmpty then [] else [("reason", .text d.reason)]) ++
      [("file", .text d.file), ("line", .natural d.line), ("type", .text d.reach)]

structure Draft where
  rule : Option String := none
  reason : Option String := none
  file : Option String := none
  line : Option Nat := none
  reach : Option String := none

def fields : List (RecordField Draft) := [
  .of "rule" (·.rule) (fun d a => { d with rule := some a }) decodeString,
  .of "reason" (·.reason) (fun d a => { d with reason := some a }) decodeString,
  .of "file" (·.file) (fun d a => { d with file := some a }) decodeString,
  .of "line" (·.line) (fun d a => { d with line := some a }) decodeNatural,
  .of "type" (·.reach) (fun d a => { d with reach := some a }) decodeString]

/-- Reads a directive. It has to have a reason. -/
def decode : Decoder Directive :=
  decodeRecord fields {} fun d => do
    return ⟨← required d.rule, ← required d.reason, ← required d.file, ← required d.line,
      ← required d.reach⟩

end Directive

namespace SuppressedItem

def toJson (s : SuppressedItem) : Value :=
  .record [("diagnostic", s.diagnostic.toJson), ("suppression", s.suppression.toJson)]

def fields : List (RecordField (Option Item × Option Directive)) := [
  .of "diagnostic" (·.1) (fun d a => (some a, d.2)) Item.decode,
  .of "suppression" (·.2) (fun d a => (d.1, some a)) Directive.decode]

def decode : Decoder SuppressedItem :=
  decodeRecord fields (none, none) fun (diagnostic, suppression) => do
    return ⟨← required diagnostic, ← required suppression⟩

end SuppressedItem

def unlessEmpty (name : String) (items : List Value) : List (String × Value) :=
  if items.isEmpty then [] else [(name, .list items)]

def toJson (r : Report) : Value :=
  .record <|
    [("version", .text r.version), ("path", .text r.path), ("platform", .text r.platform),
      ("requires_at_least", .text r.requiresAtLeast), ("passed", .bool r.passed),
      ("files_scanned", .natural r.filesScanned),
      ("diagnostics", .list (r.diagnostics.map Item.toJson))] ++
    unlessEmpty "suppressed" (r.suppressed.map SuppressedItem.toJson) ++
    [("suppressed_count", .natural r.suppressedCount)] ++
    unlessEmpty "skipped" (r.skipped.map Value.text)

structure Draft where
  version : Option String := none
  path : Option String := none
  platform : Option String := none
  requiresAtLeast : Option String := none
  passed : Option Bool := none
  filesScanned : Option Nat := none
  diagnostics : Option (List Item) := none
  suppressed : Option (List SuppressedItem) := none
  suppressedCount : Option Nat := none
  skipped : Option (List String) := none

def fields : List (RecordField Draft) := [
  .of "version" (·.version) (fun d a => { d with version := some a }) decodeString,
  .of "path" (·.path) (fun d a => { d with path := some a }) decodeString,
  .of "platform" (·.platform) (fun d a => { d with platform := some a }) decodeString,
  .of "requires_at_least" (·.requiresAtLeast) (fun d a => { d with requiresAtLeast := some a })
    decodeString,
  .of "passed" (·.passed) (fun d a => { d with passed := some a }) decodeBool,
  .of "files_scanned" (·.filesScanned) (fun d a => { d with filesScanned := some a })
    decodeNatural,
  .of "diagnostics" (·.diagnostics) (fun d a => { d with diagnostics := some a })
    (decodeList Item.decode),
  .of "suppressed" (·.suppressed) (fun d a => { d with suppressed := some a })
    (decodeList SuppressedItem.decode),
  .of "suppressed_count" (·.suppressedCount) (fun d a => { d with suppressedCount := some a })
    decodeNatural,
  .of "skipped" (·.skipped) (fun d a => { d with skipped := some a }) (decodeList decodeString)]

def decode : Decoder Report :=
  decodeRecord fields {} fun d => do
    return ⟨← required d.version, ← required d.path, ← required d.platform,
      ← required d.requiresAtLeast, ← required d.passed, ← required d.filesScanned,
      ← required d.diagnostics, d.suppressed.getD [], ← required d.suppressedCount,
      d.skipped.getD []⟩

/-- The text of a report. -/
def toText (r : Report) : String :=
  r.toJson.render

/-- Reads a report from its text. -/
def ofText (text : String) : Except Fault Report :=
  decodeText decode text

end Availability.Report
