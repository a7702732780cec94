import Availability.Files.Path
import Availability.Files.Tree

/-!
# Disks

A file tree with a current directory, from which relative paths are taken. Paths are followed name
by name, so `missing/..` leads nowhere.
-/
namespace Availability.Files

/-- Why a path could not be used. -/
inductive Error where
  | notFound
  | notDirectory
  | isDirectory
  | denied
  /-- The content is no text. -/
  | notText
  deriving DecidableEq

def Error.message : Error → String
  | notFound => "No such file or directory (os error 2)"
  | notDirectory => "Not a directory (os error 20)"
  | isDirectory => "Is a directory (os error 21)"
  | denied => "Permission denied (os error 13)"
  | notText => "stream did not contain valid UTF-8"

structure Disk where
  tree : Tree := .empty
  /-- The names that lead to the current directory. -/
  current : List String := []

/-- Why nothing can be looked up in what is no open directory. -/
def Tree.refusal (t : Tree) : Error :=
  if t.isDirectory then .denied else .notDirectory

namespace Disk

/-- Follows the parts of a path from a directory; the result has the names from the root. -/
def follow (tree : Tree) (here : List String) : List String → Except Error (List String × Tree)
  | [] =>
    match tree.find? here with
    | some t => .ok (here, t)
    | none => .error .notFound
  | part :: rest =>
    match tree.find? here with
    | none => .error .notFound
    | some (.directory _) =>
      match part with
      | "" => follow tree here rest
      | "." => follow tree here rest
      | ".." => follow tree here.dropLast rest
      | name => follow tree (here ++ [name]) rest
    | some t => .error t.refusal

/-- The directory that a path is taken from. -/
def start (disk : Disk) (path : String) : List String :=
  if Path.isAbsolute path then [] else disk.current

/-- The names that a path leads to, and what stands there. -/
def resolve (disk : Disk) (path : String) : Except Error (List String × Tree) :=
  if path.isEmpty then .error .notFound else follow disk.tree (disk.start path) (Path.parts path)

def exists? (disk : Disk) (path : String) : Bool :=
  (disk.resolve path).isOk

def isFile (disk : Disk) (path : String) : Bool :=
  match disk.resolve path with
  | .ok (_, t) => !t.isDirectory
  | .error _ => false

def isDirectory (disk : Disk) (path : String) : Bool :=
  match disk.resolve path with
  | .ok (_, t) => t.isDirectory
  | .error _ => false

def read (disk : Disk) (path : String) : Except Error Text.Bytes :=
  match disk.resolve path with
  | .error e => .error e
  | .ok (_, .file content) => .ok content
  | .ok (_, .directory _) => .error .isDirectory
  | .ok (_, .locked _) => .error .denied

/-- The content of a text file. -/
def readText (disk : Disk) (path : String) : Except Error String :=
  match disk.read path with
  | .error e => .error e
  | .ok content =>
    match Text.decode? content with
    | some text => .ok text
    | none => .error .notText

/-- The entries of a directory, in the order of their names. -/
def list (disk : Disk) (path : String) : Except Error (List (String × Tree)) :=
  match disk.resolve path with
  | .error e => .error e
  | .ok (_, .directory entries) => .ok entries
  | .ok (_, t) => .error t.refusal

/-- Writes a file. Its directory has to be there. -/
def write (disk : Disk) (path : String) (content : Text.Bytes) : Except Error Disk :=
  let parts := Path.parts path
  let named := (parts.reverse.dropWhile (· == "")).reverse
  match named.getLast? with
  | none => .error (if path.isEmpty then .notFound else .isDirectory)
  | some last =>
    match follow disk.tree (disk.start path) named.dropLast with
    | .error e => .error e
    | .ok (here, .directory entries) =>
      if named.length < parts.length || last == "." || last == ".." ||
          ((Keyed.get? last entries).any (·.isDirectory)) then .error .isDirectory
      else if (Keyed.get? last entries).any (·.isLocked) then .error .denied
      else .ok { disk with tree := disk.tree.put (here ++ [last]) (.file content) }
    | .ok (_, t) => .error t.refusal

end Disk

end Availability.Files
