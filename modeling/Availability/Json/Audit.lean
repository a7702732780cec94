import Availability.Json.Table
import Availability.Report

/-!
# Audits as JSON
-/
namespace Availability

open Json

namespace Diagnostic

private structure Draft where
  issue : Option Issue := none
  message : Option String := none
  file : Option String := none
  line : Option Nat := none
  symbol : Option String := none
  since : Option Version := none

private def fields : List (RecordField Draft) := [
  .of "rule" (·.issue) (fun d a => { d with issue := some a }) (decodeChoice Issue.ofName?),
  .of "message" (·.message) (fun d a => { d with message := some a }) decodeString,
  .of "file" (·.file) (fun d a => { d with file := some a }) decodeString,
  .of "line" (·.line) (fun d a => { d with line := some a }) decodeNatural,
  .of "symbol" (·.symbol) (fun d a => { d with symbol := some a }) decodeString,
  .of "since" (·.since) (fun d a => { d with since := some a }) Version.decode]

def decode : Decoder Diagnostic :=
  decodeRecord fields {} fun d => do
    return ⟨← required d.issue, ← required d.message, ← required d.file, ← required d.line,
      ← required d.symbol, ← required d.since⟩

end Diagnostic

namespace Suppression

private structure Draft where
  rule : Option String := none
  reason : Option String := none
  file : Option String := none
  line : Option Nat := none
  reach : Option Reach := none

private def fields : List (RecordField Draft) := [
  .of "rule" (·.rule) (fun d a => { d with rule := some a }) decodeString,
  .of "reason" (·.reason) (fun d a => { d with reason := some a }) decodeString,
  .of "file" (·.file) (fun d a => { d with file := some a }) decodeString,
  .of "line" (·.line) (fun d a => { d with line := some a }) decodeNatural,
  .of "suppression_type" (·.reach) (fun d a => { d with reach := some a })
    (decodeChoice Reach.ofName?)]

def decode : Decoder Suppression :=
  decodeRecord fields {} fun d => do
    return ⟨← required d.rule, ← required d.reason, ← required d.file, ← required d.line,
      ← required d.reach⟩

end Suppression

namespace Suppressed

private def fields : List (RecordField (Option Diagnostic × Option Suppression)) := [
  .of "diagnostic" (·.1) (fun d a => (some a, d.2)) Diagnostic.decode,
  .of "suppression" (·.2) (fun d a => (d.1, some a)) Suppression.decode]

def decode : Decoder Suppressed :=
  decodeRecord fields (none, none) fun (diagnostic, suppression) => do
    return ⟨← required diagnostic, ← required suppression⟩

end Suppressed

namespace Audit

private structure Draft where
  diagnostics : Option (List Diagnostic) := none
  suppressed : Option (List Suppressed) := none
  scanned : Option Nat := none
  skipped : Option (List String) := none

private def fields : List (RecordField Draft) := [
  .of "diagnostics" (·.diagnostics) (fun d a => { d with diagnostics := some a })
    (decodeList Diagnostic.decode),
  .of "suppressed" (·.suppressed) (fun d a => { d with suppressed := some a })
    (decodeList Suppressed.decode),
  .of "scanned" (·.scanned) (fun d a => { d with scanned := some a }) decodeNatural,
  .of "skipped" (·.skipped) (fun d a => { d with skipped := some a }) (decodeList decodeString)]

def decode : Decoder Audit :=
  decodeRecord fields {} fun d => do
    return ⟨← required d.diagnostics, d.suppressed.getD [], ← required d.scanned,
      d.skipped.getD []⟩

end Audit

end Availability
