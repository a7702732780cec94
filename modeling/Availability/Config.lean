import Availability.Glob.Reader
import Availability.Minimum
import Availability.Yaml.Node

/-!
# Settings

Settings are a YAML mapping of known names, each once. What is left out has a default.
-/
namespace Availability

open Files (Disk)

structure Config where
  requiresAtLeast : Option String := none
  /-- The file whose header states the least supported version. -/
  pluginFile : Option String := none
  /-- The file with the symbol table. -/
  symbols : Option String := none
  platform : Option String := none
  /-- Patterns of paths that are not checked. -/
  excludedPaths : List String := []
  /-- Starts of paths from which no symbols are taken. -/
  extractExclusions : Option (List String) := none
  deriving DecidableEq

inductive ConfigError where
  | unreadable (path : String) (cause : Files.Error)
  | malformed (path : String)
  | pattern (text : String) (cause : Glob.Error)
  | minimum (e : MinimumError)
  deriving DecidableEq

def ConfigError.message : ConfigError → String
  | unreadable path cause => "cannot read config " ++ path ++ ": " ++ cause.message
  | malformed path => "invalid config " ++ path
  | pattern text cause =>
    "invalid excluded_paths pattern " ++ Text.quote text ++ ": " ++ cause.describe text
  | minimum e => e.message

namespace Config

/-- The files that are looked for, in order. -/
def fileNames : List String := ["wpcompat.yaml", ".wpcompat.yaml"]

def defaultPlatform : String := "WordPress"

def platformName (config : Config) : String :=
  config.platform.getD defaultPlatform

/-- Words that stand for nothing unless they are quoted. -/
private def nullWords : List String := ["", "~", "null", "Null", "NULL"]

private def isNull : Yaml.Node → Bool
  | .scalar plain text => plain && nullWords.contains text
  | _ => false

/-- The text of a scalar as it is written. -/
private def text? : Yaml.Node → Option String
  | .scalar _ text => some text
  | _ => none

/-- A list of texts; nothing at all is an empty list. -/
private def texts? : Yaml.Node → Option (List String)
  | .sequence items => items.mapM text?
  | .scalar true "" => some []
  | _ => none

private def optional? {α : Type} (decode : Yaml.Node → Option α) :
    Option Yaml.Node → Option (Option α)
  | none => some none
  | some node => if isNull node then some none else (decode node).map some

def settings : List String := ["requires_at_least", "plugin_file", "symbols", "platform",
  "excluded_paths", "extract_exclusions"]

/-- The settings of a mapping. -/
def ofFields? (fields : List (String × Yaml.Node)) : Option Config :=
  let names := fields.map (·.1)
  if names.all settings.contains && decide names.Nodup then do
    let find? (name : String) : Option Yaml.Node := (fields.find? (·.1 == name)).map (·.2)
    return {
      requiresAtLeast := ← optional? text? (find? "requires_at_least")
      pluginFile := ← optional? text? (find? "plugin_file")
      symbols := ← optional? text? (find? "symbols")
      platform := ← optional? text? (find? "platform")
      excludedPaths := ← match find? "excluded_paths" with
        | none => some []
        | some node => texts? node
      extractExclusions := ← optional? texts? (find? "extract_exclusions") }
  else none

def ofDocument? : Yaml.Node.Document → Option Config
  | .empty => some {}
  | .node (.scalar true "") => some {}
  | .node (.mapping pairs) => do
    ofFields? (← pairs.mapM fun (key, value) => (text? key).map fun name => (name, value))
  | .node _ => none

/-- The patterns of paths that are not checked. -/
def excluded (config : Config) : Except ConfigError (List Glob.Pattern) :=
  config.excludedPaths.mapM fun text => (Glob.read text).mapError (.pattern text)

/-- Settings whose version and patterns can be used. -/
def validate (config : Config) : Except ConfigError Config := do
  if let some value := config.requiresAtLeast then
    let _ ← (Minimum.parse value "config").mapError .minimum
  let _ ← config.excluded
  return config

/-- The settings of a file. -/
def load (disk : Disk) (path : String) : Except ConfigError Config := do
  let text ← (disk.readText path).mapError (.unreadable path)
  match (Yaml.Node.read text).bind ofDocument? with
  | none => .error (.malformed path)
  | some config => config.validate

/-- The settings of the given file, else of one with a known name in a directory, else the
defaults. -/
def discover (disk : Disk) (given : Option String) (dir : String) : Except ConfigError Config :=
  match given.or ((fileNames.map (Files.Path.join dir)).find? disk.isFile) with
  | some path => load disk path
  | none => .ok {}

end Config

end Availability
