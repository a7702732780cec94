import Availability.Json.Decode
import Availability.Json.Printer
import Availability.SymbolTable

/-!
# Symbol tables as JSON
-/
namespace Availability

open Json

def Version.decode : Decoder Version := fun v => do
  let text ← decodeString v
  match Version.ofString? text with
  | some version => .ok version
  | none => .error .mismatch

def Version.toJson (v : Version) : Value :=
  .text v.toString

namespace SymbolEntry

abbrev Draft := Option Version × Option (Option Version)

def fields : List (RecordField Draft) := [
  .of "since" (·.1) (fun d a => (some a, d.2)) Version.decode,
  .of "deprecated" (·.2) (fun d a => (d.1, some a)) (decodeOption Version.decode)]

def decode : Decoder SymbolEntry :=
  decodeRecord fields (none, none) fun (since, deprecated) => do
    return ⟨← required since, deprecated.join⟩

def toJson (e : SymbolEntry) : Value :=
  .record <|
    [("since", e.since.toJson)] ++
      (e.deprecated.map fun v => ("deprecated", v.toJson)).toList

end SymbolEntry

namespace ClassEntry

def fields : List (RecordField (Option (Option String))) := [
  .of "parent" id (fun _ a => some a) (decodeOption decodeString)]

def decode : Decoder ClassEntry :=
  decodeRecord fields none fun parent => .ok ⟨parent.join⟩

def toJson (e : ClassEntry) : Value :=
  .record (e.parent.map fun name => ("parent", .text name)).toList

end ClassEntry

namespace SymbolTable

/-- The name of the format. -/
def schema : String :=
  "https://raw.githubusercontent.com/johnbillion/wp-compat/trunk/schemas/symbols.json"

structure Draft where
  schema : Option String := none
  symbols : Option (List (String × SymbolEntry)) := none
  classes : Option (List (String × ClassEntry)) := none

def fields : List (RecordField Draft) := [
  .of "$schema" (·.schema) (fun d a => { d with schema := some a }) decodeString,
  .of "symbols" (·.symbols) (fun d a => { d with symbols := some a })
    (decodeEntries SymbolEntry.decode),
  .of "classes" (·.classes) (fun d a => { d with classes := some a })
    (decodeEntries ClassEntry.decode)]

def decode : Decoder SymbolTable :=
  decodeRecord fields {} fun d => do
    return {
      symbols := Keyed.ofList (← required d.symbols)
      classes := Keyed.ofList (d.classes.getD []) }

/-- Reads a table from its text. -/
def ofText (text : String) : Except Fault SymbolTable :=
  decodeText decode text

def toJson (table : SymbolTable) : Value :=
  .record <|
    [("$schema", .text schema),
      ("symbols", .record (table.symbols.map fun (name, entry) => (name, entry.toJson)))] ++
    if table.classes.isEmpty then []
    else [("classes", .record (table.classes.map fun (name, entry) => (name, entry.toJson)))]

/-- The text of a table. -/
def toText (table : SymbolTable) : String :=
  table.toJson.render

end SymbolTable

end Availability
