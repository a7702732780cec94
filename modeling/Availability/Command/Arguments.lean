import Availability.Command.Options
import Availability.Json.TableFile

/-!
# Commands

The two commands and their arguments. Options stand after the command, `--verbose` on either side.
-/
namespace Availability

namespace Command

structure CheckArguments where
  /-- What to check. -/
  path : String
  config : Option String := none
  symbols : Option String := none
  requiresAtLeast : Option String := none
  pluginFile : Option String := none
  format : String := "pretty"
  showSuppressed : Bool := false
  deriving DecidableEq

structure GenerateArguments where
  /-- Where the sources are. -/
  root : String
  output : String := SymbolTable.defaultFile
  config : Option String := none
  deriving DecidableEq

end Command

inductive Command where
  | check (arguments : Command.CheckArguments)
  | generate (arguments : Command.GenerateArguments)
  deriving DecidableEq

namespace Command

structure Invocation where
  verbose : Bool
  command : Command
  deriving DecidableEq

private def verbose : Parameter := ⟨"verbose", some 'v', .flag⟩

private def help : Parameter := ⟨"help", some 'h', .help⟩

private def config : Parameter := ⟨"config", some 'c', .path⟩

/-- The options before a command. -/
def globalOptions : List Parameter := [verbose, help, ⟨"version", some 'V', .version⟩]

def checkOptions : List Parameter := [
  config,
  ⟨"symbols", some 's', .path⟩,
  ⟨"requires-at-least", some 'r', .text⟩,
  ⟨"plugin-file", some 'p', .path⟩,
  ⟨"format", some 'f', .text⟩,
  ⟨"show-suppressed", none, .flag⟩,
  verbose, help]

def generateOptions : List Parameter := [⟨"output", some 'o', .path⟩, config, verbose, help]

/-- Reads words after which one path is known. -/
private def readPath (options : List Parameter) (words : List String) :
    Except UsageError (String × Reading) := do
  let r ← Reading.words options { arguments := [⟨"path", none, .path⟩] } words
  match r.value? "path" with
  | some path => .ok (path, r)
  | none => .error .missingArgument

private def readCheck (before : Reading) (words : List String) : Except UsageError Invocation := do
  let (path, r) ← readPath checkOptions words
  return {
    verbose := before.has "verbose" || r.has "verbose"
    command := .check {
      path
      config := r.value? "config"
      symbols := r.value? "symbols"
      requiresAtLeast := r.value? "requires-at-least"
      pluginFile := r.value? "plugin-file"
      format := (r.value? "format").getD "pretty"
      showSuppressed := r.has "show-suppressed" } }

private def readGenerate (before : Reading) (words : List String) :
    Except UsageError Invocation := do
  let (root, r) ← readPath generateOptions words
  return {
    verbose := before.has "verbose" || r.has "verbose"
    command := .generate {
      root
      output := (r.value? "output").getD SymbolTable.defaultFile
      config := r.value? "config" } }

/-- The words that stand for commands. -/
def names : List String := ["check", "lint", "generate", "help"]

/-- Help on a command. -/
private def readHelp : List String → UsageError
  | [] => .help
  | [name] => if names.contains name then .help else .unknownCommand
  | _ => .unknownCommand

/-- Reads the words up to a command, then the command. -/
def readCommand (r : Reading) : List String → Except UsageError Invocation
  | [] => .error (if r.given.isEmpty then .nothingGiven else .missingCommand)
  | text :: rest =>
    if r.divided then
      .error (if names.contains text then .unknownArgument else .unknownCommand)
    else
      match text with
      | "check" => readCheck r rest
      | "lint" => readCheck r rest
      | "generate" => readGenerate r rest
      | "help" => .error (readHelp rest)
      | _ =>
        if Word.ofString text == .plain then .error .unknownCommand
        else do readCommand (← r.word globalOptions text) rest

/-- The command that the words of a command line stand for. -/
def Invocation.ofWords (words : List String) : Except UsageError Invocation :=
  readCommand {} words

end Command

end Availability
