import Availability.Audit
import Availability.Extraction
import Availability.Php.Program
import Availability.Sources
import Availability.Walk

/-!
# Checking files

All files are read first, since a class that one file declares counts in every other. Each file is
then checked on its own, and the audits are joined in the order of files and lines.
-/
namespace Availability

open Files (Disk)

/-- A file that was read, with its tree. -/
structure SourceFile where
  label : String
  content : Text.Bytes
  tree : Php.Node
  deriving DecidableEq

namespace SourceFile

/-- The text in which suppressions are looked for; content that is no text has none. -/
def text (f : SourceFile) : String :=
  (Text.decode? f.content).getD ""

def classes (f : SourceFile) : List ClassRecord :=
  (DeclaredClass.ofTree f.tree).map DeclaredClass.record

/-- The audit of a file under a policy. -/
def audit (f : SourceFile) (policy : Policy) : Audit :=
  Audit.ofFile (Suppression.ofSource f.label f.text) (policy.diagnose f.label f.tree)

end SourceFile

/-- What files are held against. -/
structure Check where
  /-- The directory that files are named from. -/
  base : String
  table : SymbolTable
  minimum : Version
  platform : String := "WordPress"
  deriving DecidableEq

namespace Check

/-- The name of a file in an audit. -/
def label (c : Check) (path : String) : String :=
  let relative := Files.Path.withSlashes ((Files.Path.stripBase? c.base path).getD path)
  if relative.isEmpty then (Files.Path.fileName? path).getD "" else relative

/-- A file, or the name of one that cannot be read or has no tree. -/
def load (c : Check) (parse : Php.Parser) (disk : Disk) (path : String) :
    Except String SourceFile :=
  match disk.read path with
  | .error _ => .error (c.label path)
  | .ok content =>
    match parse content with
    | none => .error (c.label path)
    | some parsed => .ok ⟨c.label path, content, parsed.tree⟩

/-- The policy for files that are checked together. -/
def policy (c : Check) (files : List SourceFile) : Policy where
  table := c.table
  minimum := c.minimum
  platform := c.platform
  classes := (Classes.ofTable c.table).insertAll (files.flatMap SourceFile.classes)

/-- The audit of files that were read or not. -/
def auditAll (c : Check) (files : List (Except String SourceFile)) : Audit :=
  let policy := c.policy (files.filterMap Except.toOption)
  (Audit.concat (files.map fun
    | .ok f => f.audit policy
    | .error label => Audit.ofUnreadable label)).sort

/-- Checks files. -/
def run (c : Check) (parse : Php.Parser) (disk : Disk) (paths : List String) : Audit :=
  c.auditAll (paths.map (c.load parse disk))

end Check

end Availability
