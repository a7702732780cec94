import Availability.Files.Disk
import Availability.Header
import Availability.Text.Quoted
import Availability.Version

/-!
# The least supported version

The version comes from an explicit setting, else from the header of a named file, else from the
header of a file that is found in a directory. A source that is there but has no version in it is an
error; the next one is not tried.
-/
namespace Availability

open Files (Disk Path.join)

inductive MinimumError where
  | unreadable (path : String) (cause : Files.Error)
  | invalid (value origin : String)
  | missing (searched : String)
  deriving DecidableEq

def MinimumError.message : MinimumError → String
  | unreadable path cause => "cannot read manifest " ++ path ++ ": " ++ cause.message
  | invalid value origin =>
    "invalid minimum version " ++ Text.quote value ++ " from " ++ origin ++
      ": expected major.minor[.patch]"
  | missing searched =>
    "no minimum supported version found (searched " ++ searched ++
      "); pass --requires-at-least or add a \"Requires at least:\" header"

namespace Minimum

/-- The version of a text; whitespace around it does not count. -/
def parse (value origin : String) : Except MinimumError Version :=
  match Version.ofString? (Text.trim value) with
  | some version => .ok version
  | none => .error (.invalid value origin)

/-- The header of a file. -/
def header? (disk : Disk) (path : String) : Except Files.Error (Option String) :=
  (disk.read path).map (Header.ofBytes? Header.requiresAtLeast)

def hasHeader (disk : Disk) (path : String) : Bool :=
  match header? disk path with
  | .ok (some _) => true
  | _ => false

/-- The file of a theme that has its header. -/
def stylesheet : String := "style.css"

/-- The file of a directory that states the version: the stylesheet of a theme, else the first
source with a header. -/
def findManifest (disk : Disk) (root : String) : Except MinimumError (Option String) :=
  let style := Path.join root stylesheet
  if disk.isFile style && hasHeader disk style then .ok (some style)
  else
    match disk.list root with
    | .error cause => .error (.unreadable root cause)
    | .ok entries =>
      let sources := entries.filter fun (name, entry) =>
        !entry.isDirectory && Files.Path.isSource name
      .ok ((sources.map fun (name, _) => Path.join root name).find? (hasHeader disk))

/-- The version that a file states. -/
def ofManifest (disk : Disk) (path : String) : Except MinimumError Version :=
  match header? disk path with
  | .error cause => .error (.unreadable path cause)
  | .ok none => .error (.missing path)
  | .ok (some value) => parse value path

end Minimum

/-- Where the least supported version may be stated. -/
structure MinimumSource where
  explicit : Option String := none
  manifest : Option String := none
  searchRoot : Option String := none

/-- The least supported version. -/
def MinimumSource.resolve (source : MinimumSource) (disk : Disk) : Except MinimumError Version :=
  match source.explicit, source.manifest, source.searchRoot with
  | some value, _, _ => Minimum.parse value "explicit setting"
  | none, some path, _ => Minimum.ofManifest disk path
  | none, none, none => .error (.missing "<none>")
  | none, none, some root =>
    match Minimum.findManifest disk root with
    | .error e => .error e
    | .ok none => .error (.missing root)
    | .ok (some path) => Minimum.ofManifest disk path

end Availability
