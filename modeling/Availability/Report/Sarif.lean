import Availability.Json.Printer
import Availability.Keyed
import Availability.Report

/-!
# Reports in the Static Analysis Results Interchange Format
-/
namespace Availability.Sarif

open Json

def formatVersion : String := "2.1.0"

def schema : String :=
  "https://raw.githubusercontent.com/oasis-tcs/sarif-spec/master/Schemata/sarif-schema-2.1.0.json"

def helpPage : String := "https://github.com/johnbillion/wp-compat"

structure Result where
  rule : String
  message : String
  file : String
  /-- Lines count from 1. -/
  line : Nat
  deriving DecidableEq

/-- The issues that occur, in the order of their names, each once, and where they occur. -/
structure Log where
  issues : List Issue
  results : List Result
  deriving DecidableEq

def Result.ofDiagnostic (d : Diagnostic) : Result where
  rule := d.issue.name
  message := d.message
  file := d.file
  line := max d.line 1

def Log.ofAudit (audit : Audit) : Log where
  issues := (Keyed.set (audit.diagnostics.map (·.issue.name))).filterMap Issue.ofName?
  results := audit.diagnostics.map .ofDiagnostic

def displayName : Issue → String
  | .functionNotAvailable => "FunctionNotAvailable"
  | .methodNotAvailable => "MethodNotAvailable"

def messageJson (text : String) : Value :=
  .record [("text", .text text)]

def level : String × Value := ("level", .text "error")

def ruleJson (i : Issue) : Value :=
  .record [("id", .text i.name), ("name", .text (displayName i)),
    ("shortDescription", messageJson i.description), ("helpUri", .text helpPage),
    ("defaultConfiguration", .record [level])]

def Result.locationJson (r : Result) : Value :=
  .record [("physicalLocation", .record [
    ("artifactLocation", .record [("uri", .text r.file)]),
    ("region", .record [("startLine", .natural r.line)])])]

def Result.toJson (r : Result) : Value :=
  .record [("ruleId", .text r.rule), level, ("message", messageJson r.message),
    ("locations", .list [r.locationJson])]

def Log.toJson (log : Log) : Value :=
  let program := Value.record [("name", .text programName), ("version", .text programVersion),
    ("informationUri", .text helpPage), ("rules", .list (log.issues.map ruleJson))]
  .record [("version", .text formatVersion), ("$schema", .text schema),
    ("runs", .list [.record [
      ("tool", .record [("driver", program)]),
      ("results", .list (log.results.map Result.toJson))]])]

def Log.toText (log : Log) : String :=
  log.toJson.render

end Availability.Sarif
