import Availability.Check
import Availability.Command.Arguments
import Availability.Config
import Availability.Generation
import Availability.Report.Json
import Availability.Report.Sarif
import Availability.Report.Terminal

/-!
# Running commands

A command reads a disk and says what is printed. Only `generate` writes, and it does so last:
whatever goes wrong before leaves the disk as it was.
-/
namespace Availability.Command

open Files (Disk Path.ofNames Path.join Path.isAbsolute)

/-- Why a command has no result. -/
inductive Failure where
  | config (e : ConfigError)
  | table (e : TableError)
  /-- The path to check leads nowhere. -/
  | inaccessible (path : String) (cause : Files.Error)
  | walk (e : WalkError)
  | extraction (e : ExtractionError)
  deriving DecidableEq

def Failure.message : Failure → String
  | config e => e.message
  | table e => e.message
  | inaccessible path cause => "cannot access path " ++ Text.quote path ++ ": " ++ cause.message
  | walk e => e.message ++ ": " ++ e.cause.message
  | extraction e => e.message

/-- How a command ends. -/
inductive Verdict where
  | success
  | findings
  | error
  deriving DecidableEq

def Verdict.exitCode : Verdict → Nat
  | success => 0
  | findings => 1
  | error => 2

def Verdict.ofAudit (audit : Audit) : Verdict :=
  if audit.diagnostics.isEmpty then .success else .findings

/-- What a command prints. -/
structure Output where
  verdict : Verdict
  printed : String := ""
  /-- What is printed beside the result. -/
  remarks : String := ""
  deriving DecidableEq

inductive Format where
  | pretty
  | json
  | sarif
  deriving DecidableEq

def Format.ofName? : String → Option Format
  | "pretty" => some pretty
  | "json" => some json
  | "sarif" => some sarif
  | _ => none

def unknownFormat (name : String) : String :=
  "Error: invalid format " ++ Text.quote name ++ ", must be 'pretty', 'json', or 'sarif'\n"

/-- The settings of a command: those of the named file, else those that are found where it is run.
-/
def settings (disk : Disk) (given : Option String) : Except Failure Config :=
  (Config.discover disk given (Path.ofNames disk.current)).mapError .config

namespace CheckArguments

/-- A file that is not found from the current directory is taken from a root. -/
def locate (disk : Disk) (root path : String) : String :=
  if Path.isAbsolute path || disk.exists? path then path else Path.join root path

/-- The directory that files are named from: what is checked, or the directory of a single file. -/
def root (names : List String) (tree : Files.Tree) : String :=
  Path.ofNames (if tree.isDirectory then names else names.dropLast)

/-- The file with the symbol table. -/
def tableFile (args : CheckArguments) (config : Config) : String :=
  (args.symbols.or config.symbols).getD SymbolTable.defaultFile

/-- Where the least supported version may come from; an argument counts before a setting. -/
def minimumSource (args : CheckArguments) (config : Config) (disk : Disk) (root : String) :
    MinimumSource where
  explicit := args.requiresAtLeast.or config.requiresAtLeast
  manifest := (args.pluginFile.or config.pluginFile).map (locate disk root)
  searchRoot := some root

/-- A check that can be made, and the files it is made on. -/
structure Plan where
  check : Check
  paths : List String
  deriving DecidableEq

/-- Finds all that is needed for a check. -/
def plan (args : CheckArguments) (disk : Disk) : Except Failure Plan := do
  let config ← settings disk args.config
  let (names, tree) ← (disk.resolve args.path).mapError (.inaccessible args.path)
  let root := root names tree
  let table ← (SymbolTable.load disk (args.tableFile config)).mapError .table
  let minimum ← ((args.minimumSource config disk root).resolve disk).mapError fun e =>
    .config (.minimum e)
  let excluded ← config.excluded.mapError .config
  let paths ← (Sources.collect disk (Glob.acceptsAny excluded) (Path.ofNames names)).mapError .walk
  return ⟨⟨root, table, minimum, config.platformName⟩, paths⟩

/-- The text of a report. -/
def report (args : CheckArguments) (colour : Bool) (check : Check) (audit : Audit) :
    Format → String
  | .json => (Report.ofAudit (heading check) audit).toText ++ "\n"
  | .sarif => (Sarif.Log.ofAudit audit).toText ++ "\n"
  | .pretty => Terminal.report colour args.showSuppressed (heading check) audit
where
  heading (check : Check) : Report.Heading := ⟨args.path, check.platform, check.minimum⟩

/-- Makes a check. -/
def run (args : CheckArguments) (parse : Php.Parser) (colour : Bool) (disk : Disk) :
    Except Failure Output :=
  match Format.ofName? args.format with
  | none => .ok { verdict := .error, remarks := unknownFormat args.format }
  | some format => do
    let plan ← args.plan disk
    if plan.paths.isEmpty then
      return { verdict := .success, remarks := "Warning: no PHP files to scan\n" }
    let audit := plan.check.run parse disk plan.paths
    return { verdict := .ofAudit audit, printed := args.report colour plan.check audit format }

end CheckArguments

namespace GenerateArguments

/-- Takes the symbols of all sources. -/
def extract (args : GenerateArguments) (parse : Php.Parser) (disk : Disk) :
    Except Failure Extraction := do
  let config ← settings disk args.config
  let exclusions := config.extractExclusions.getD Extraction.defaultExclusions
  (Extraction.ofRoot parse disk exclusions args.root).mapError .extraction

/-- What was left out, and what was written. -/
def remarks (args : GenerateArguments) (found : Extraction) : String :=
  String.join (found.notes.map fun note => "Omitted: " ++ note.message ++ "\n") ++
    "Wrote " ++ Version.decimal found.table.symbols.length ++ " symbols from " ++
    Version.decimal found.filesScanned ++ " files to " ++ args.output ++
    " (" ++ Version.decimal found.notes.length ++ " omitted)\n"

/-- Writes the table of all symbols. -/
def run (args : GenerateArguments) (parse : Php.Parser) (disk : Disk) :
    Except Failure Output × Disk :=
  match args.extract parse disk with
  | .error e => (.error e, disk)
  | .ok found =>
    match found.table.save disk args.output with
    | .error e => (.error (.table e), disk)
    | .ok written => (.ok { verdict := .success, remarks := args.remarks found }, written)

end GenerateArguments

/-- Runs a command; the result has the disk afterwards. -/
def run (parse : Php.Parser) (colour : Bool) (disk : Disk) :
    Command → Except Failure Output × Disk
  | .check args => (args.run parse colour disk, disk)
  | .generate args => args.run parse disk

end Availability.Command
