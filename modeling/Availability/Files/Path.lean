import Availability.Text.Whitespace

/-!
# Paths

A path is a text whose parts are divided by slashes. Empty parts and single dots name nothing.
-/
namespace Availability.Files.Path

/-- The parts between the slashes. -/
def parts (path : String) : List String :=
  (Text.split '/' path.toList).map String.ofList

def isAbsolute (path : String) : Bool :=
  path.toList.head? == some '/'

/-- A path taken from a directory. -/
def join (dir path : String) : String :=
  if isAbsolute path || dir.isEmpty then path
  else if dir.toList.getLast? == some '/' then dir ++ path
  else dir ++ "/" ++ path

/-- The path with the given names, from the directory that they start in. -/
def relative (names : List String) : String :=
  String.intercalate "/" names

/-- The absolute path with the given names. -/
def ofNames (names : List String) : String :=
  "/" ++ relative names

/-- The path of names below a root; without names it is the root. -/
def below (root : String) (names : List String) : String :=
  if names.isEmpty then root else join root (relative names)

private def namesNothing (part : String) : Bool :=
  part == "" || part == "."

/-- The parts that name something. -/
def names (path : String) : List String :=
  (parts path).filter fun part => !namesNothing part

/-- The last name of a path. -/
def fileName? (path : String) : Option String :=
  match (names path).getLast? with
  | some ".." => none
  | name => name

/-- Whether a file of this name is a source: its extension is `php`, and something stands before. -/
def isSource (name : String) : Bool :=
  match Text.dropStart? "php.".toList name.toList.reverse with
  | some (_ :: _) => true
  | _ => false

private def stripNames : List String → List String → Option (List String)
  | [], parts => some parts
  | _ :: _, [] => none
  | name :: rest, part :: parts =>
    if namesNothing part then stripNames (name :: rest) parts
    else if name == part then stripNames rest parts
    else none

private def trimParts (parts : List String) : List String :=
  ((parts.dropWhile namesNothing).reverse.dropWhile namesNothing).reverse

/-- A path as seen from a directory that it is in. -/
def stripBase? (dir path : String) : Option String :=
  if isAbsolute dir == isAbsolute path then
    (stripNames (names dir) (parts path)).map fun parts => String.intercalate "/" (trimParts parts)
  else none

/-- A path with slashes in place of backslashes. -/
def withSlashes (path : String) : String :=
  String.ofList (path.toList.map fun c => if c == '\\' then '/' else c)

end Availability.Files.Path
