/-!
# Options

A command line is a list of words. Options have a long name and may have a letter; letters can share
one word. A word is settled only when the next option or argument begins, so of two faults the one
that is noticed first is reported.
-/
namespace Availability.Command

/-- Why no command is run. -/
inductive UsageError where
  | nothingGiven
  | missingCommand
  | unknownCommand
  | unknownArgument
  | missingArgument
  | repeated
  | invalidValue
  /-- A value for an option that takes none. -/
  | surplusValue
  /-- Help is asked for. -/
  | help
  /-- The version is asked for. -/
  | version
  deriving DecidableEq, Repr

/-- What an option stands for. -/
inductive Role where
  | flag
  | text
  /-- A path, which has to be a nonempty text. -/
  | path
  | help
  | version
  deriving DecidableEq

/-- An option, or an argument that stands without a name. -/
structure Parameter where
  name : String
  letter : Option Char := none
  role : Role

def Parameter.takesValue (p : Parameter) : Bool :=
  p.role == .text || p.role == .path

def Parameter.accepts (p : Parameter) (value : String) : Bool :=
  !(p.role == .path && value.isEmpty)

/-- A word by its form. -/
inductive Word where
  /-- The word after which there are no options. -/
  | divider
  | long (name : String) (value : Option String)
  | letters (cs : List Char)
  | plain
  deriving DecidableEq

/-- A single dash is a plain word. -/
def Word.ofString (word : String) : Word :=
  match word.toList with
  | ['-', '-'] => .divider
  | '-' :: '-' :: rest =>
    let name := String.ofList (rest.takeWhile (· != '='))
    match rest.dropWhile (· != '=') with
    | [] => .long name none
    | _ :: value => .long name (some (String.ofList value))
  | '-' :: c :: rest => .letters (c :: rest)
  | _ => .plain

/-- What was read from the words so far. -/
structure Reading where
  /-- The parameters that were given, each once, with their values. -/
  given : List (String × String) := []
  /-- The parameter that was named last, with its value if that was read. -/
  pending : Option (Parameter × Option String) := none
  /-- The arguments that may follow. -/
  arguments : List Parameter := []
  /-- Whether there are no more options. -/
  divided : Bool := false

namespace Reading

def value? (r : Reading) (name : String) : Option String :=
  (r.given.find? (·.1 == name)).map (·.2)

def has (r : Reading) (name : String) : Bool :=
  (r.value? name).isSome

private def give (r : Reading) (name value : String) : Except UsageError Reading :=
  if r.has name then .error .repeated
  else .ok { r with given := r.given ++ [(name, value)], pending := none }

/-- Takes up the pending parameter. -/
def settle (r : Reading) : Except UsageError Reading :=
  match r.pending with
  | none => .ok r
  | some (_, none) => .error .invalidValue
  | some (p, some value) => do
    let settled ← r.give p.name value
    if p.accepts value then .ok settled else .error .invalidValue

/-- Reads an option without a value. -/
def mark (r : Reading) (p : Parameter) : Except UsageError Reading := do
  let r ← r.settle
  match p.role with
  | .help => .error .help
  | .version => .error .version
  | _ => r.give p.name ""

/-- Reads an option whose value is the next word. -/
def await (r : Reading) (p : Parameter) : Except UsageError Reading := do
  return { ← r.settle with pending := some (p, none) }

/-- Reads an option with its value. -/
def assign (r : Reading) (p : Parameter) (value : String) : Except UsageError Reading := do
  settle { ← r.settle with pending := some (p, some value) }

def long (options : List Parameter) (r : Reading) (name : String) (value : Option String) :
    Except UsageError Reading :=
  match options.find? (·.name == name), value with
  | none, _ => .error .unknownArgument
  | some p, none => if p.takesValue then r.await p else r.mark p
  | some p, some value => if p.takesValue then r.assign p value else .error .surplusValue

/-- Reads letters; what follows the letter of an option that takes a value is that value. -/
def letters (options : List Parameter) (r : Reading) : List Char → Except UsageError Reading
  | [] => .ok r
  | c :: rest =>
    match options.find? (·.letter == some c) with
    | none => .error .unknownArgument
    | some p =>
      if p.takesValue then
        match rest with
        | [] => r.await p
        | '=' :: value => r.assign p (String.ofList value)
        | value => r.assign p (String.ofList value)
      else do letters options (← r.mark p) rest

def argument (r : Reading) (word : String) : Except UsageError Reading :=
  match r.arguments with
  | [] => .error .unknownArgument
  | p :: rest => do
    return { ← r.settle with pending := some (p, some word), arguments := rest }

/-- Reads a word. -/
def word (options : List Parameter) (r : Reading) (text : String) : Except UsageError Reading :=
  if r.divided then r.argument text
  else
    match Word.ofString text with
    | .divider => .ok { r with divided := true }
    | .long name value => r.long options name value
    | .letters cs => r.letters options cs
    | .plain =>
      match r.pending with
      | some (p, none) => .ok { r with pending := some (p, some text) }
      | _ => r.argument text

/-- Reads words to the end. -/
def words (options : List Parameter) (r : Reading) : List String → Except UsageError Reading
  | [] => r.settle
  | text :: rest => do words options (← r.word options text) rest

end Reading

end Availability.Command
