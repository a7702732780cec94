import Availability.Extraction
import Availability.Php.Program
import Availability.Sources

/-!
# Tables from source trees

Symbols are taken from all sources below a root. Whatever is wrong in any of them ends the
extraction.
-/
namespace Availability

open Files (Disk Path.below Path.relative Path.withSlashes)

inductive ExtractionError where
  | walk (root : String) (e : WalkError)
  | unreadable (path : String) (cause : Files.Error)
  /-- The parser has no tree for a source. -/
  | unparsable (path : String)
  | syntaxError (path : String)
  | invalidSince (path : String) (e : InvalidSince)
  | duplicate (e : DuplicateSymbol)
  deriving DecidableEq

namespace Extraction

/-- Paths below the root that are passed over: bundled libraries have versions of their own. -/
def defaultExclusions : List String := [
  "wp-content/",
  "wp-admin/includes/class-pclzip.php",
  "wp-admin/includes/noop.php",
  "wp-includes/class-simplepie.php",
  "wp-includes/ID3/",
  "wp-includes/IXR/",
  "wp-includes/PHPMailer/",
  "wp-includes/SimplePie/",
  "wp-includes/Text/",
  "wp-includes/sodium_compat/",
  "wp-includes/atomlib.php",
  "wp-includes/class-json.php",
  "wp-includes/compat.php"]

/-- The tree of a source that is a program. -/
def treeAt (parse : Php.Parser) (disk : Disk) (path : String) :
    Except ExtractionError Php.Node :=
  match disk.read path with
  | .error cause => .error (.unreadable path cause)
  | .ok content =>
    match parse content with
    | none => .error (.unparsable path)
    | some parsed => if parsed.sound then .ok parsed.tree else .error (.syntaxError path)

/-- The symbols of a file at or below a root. -/
def ofFile (parse : Php.Parser) (disk : Disk) (root : String) (names : List String) :
    Except ExtractionError FileSymbols := do
  let path := Path.below root names
  let tree ← treeAt parse disk path
  (FileSymbols.ofTree (Path.withSlashes (Path.relative names)) tree).mapError (.invalidSince path)

/-- The symbols of all sources at and below a root. -/
def ofRoot (parse : Php.Parser) (disk : Disk) (exclusions : List String) (root : String) :
    Except ExtractionError Extraction := do
  let files ← (Sources.declaring disk exclusions root).mapError (.walk root)
  let symbols ← files.mapM (ofFile parse disk root)
  (merge symbols).mapError .duplicate

end Extraction

def ExtractionError.message : ExtractionError → String
  | walk root e => "cannot walk " ++ root ++ ": " ++ e.message
  | unreadable path cause => "cannot read " ++ path ++ ": " ++ cause.message
  | unparsable path => "error parsing file " ++ path ++ ": failed to parse " ++ path
  | syntaxError path => "error parsing file " ++ path ++ ": syntax error"
  | invalidSince path e => e.message path
  | duplicate e => e.message

end Availability
