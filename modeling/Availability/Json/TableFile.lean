import Availability.Files.Disk
import Availability.Json.Table

/-!
# Files with symbol tables
-/
namespace Availability

open Files (Disk)

inductive TableError where
  | unreadable (path : String) (cause : Files.Error)
  | malformed (path : String) (fault : Json.Fault)
  | unwritable (path : String) (cause : Files.Error)
  deriving DecidableEq

def TableError.message : TableError → String
  | unreadable path cause => "cannot read symbol table " ++ path ++ ": " ++ cause.message
  | malformed path _ => "invalid symbol table " ++ path
  | unwritable path cause => "cannot write symbol table " ++ path ++ ": " ++ cause.message

namespace SymbolTable

/-- The file that is meant when none is named. -/
def defaultFile : String := "symbols.json"

/-- The table of a file. -/
def load (disk : Disk) (path : String) : Except TableError SymbolTable :=
  match disk.readText path with
  | .error cause => .error (.unreadable path cause)
  | .ok text => (ofText text).mapError (.malformed path)

/-- Writes a table, and a line break after it. -/
def save (table : SymbolTable) (disk : Disk) (path : String) : Except TableError Disk :=
  (disk.write path (Text.encode (table.toText ++ "\n"))).mapError (.unwritable path)

end SymbolTable

end Availability
