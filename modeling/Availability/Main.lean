import Availability.Command.Lookup

/-!
# The command line

A command works on the files that it names and on those whose names come on standard input, one a
line, such as a listing of the directory to check.
-/
namespace Availability.CommandLine

open Files (Disk Tree)

/-- The code with which the system refuses to read a directory as a file. -/
def isDirectoryCode : UInt32 := 21

/-- What stands at a path. -/
def look (path : String) : IO (Option Tree) := do
  try
    return some (.file (← IO.FS.readBinFile path).toList)
  catch e =>
    match e with
    | .inappropriateType _ code _ =>
      return if code == isDirectoryCode then some .empty else none
    | .permissionDenied .. => return some (.locked false)
    | _ => return none

/-- Adds what stands at paths. -/
def fill (disk : Disk) (paths : List String) : IO Disk :=
  paths.foldlM (fun disk path => do
    match ← look path with
    | some tree => return disk.add path tree
    | none => return disk) disk

/-- The names on standard input, unless a person would have to type them. -/
def listed : IO (List String) := do
  let input ← IO.getStdin
  if ← input.isTty then return []
  let lines := (← input.readToEnd).splitOn "\n"
  return lines.filter fun line => !line.isEmpty

def usage : String :=
  "Usage: " ++ programName ++ " [OPTIONS] <COMMAND>\n\n" ++
  "Commands:\n" ++
  "  check     Check plugin or theme code against the minimum supported version\n" ++
  "  generate  Build the symbol version table from a WordPress source tree\n" ++
  "  help      Print this message or the help of the given subcommand(s)\n"

/-- Says why no command is run. -/
def refuse : Command.UsageError → IO UInt32
  | .help => do IO.print usage; return 0
  | .version => do IO.println (programName ++ " " ++ programVersion); return 0
  | _ => do IO.eprint usage; return 2

/-- Runs a command on the files of the system. -/
def runCommand (command : Command) : IO UInt32 := do
  let current := Files.Path.names (toString (← IO.currentDir))
  let disk : Disk := { tree := Tree.put current .empty .empty, current }
  let disk ← fill disk (← listed)
  let disk ← fill disk (command.paths disk)
  let disk ← fill disk (command.paths disk)
  let colour := (← (← IO.getStdout).isTty) && (← IO.getEnv "NO_COLOR").isNone
  let (result, after) := command.run Php.parser colour disk
  match result with
  | .error e =>
    IO.eprintln ("Error: " ++ e.message)
    return 2
  | .ok output =>
    if let .generate args := command then
      if let .ok content := after.read args.output then
        IO.FS.writeBinFile args.output ⟨content.toArray⟩
    IO.print output.printed
    IO.eprint output.remarks
    return output.verdict.exitCode.toUInt32

end Availability.CommandLine

def main (args : List String) : IO UInt32 := do
  match Availability.Command.Invocation.ofWords args with
  | .error e => Availability.CommandLine.refuse e
  | .ok invocation => Availability.CommandLine.runCommand invocation.command
