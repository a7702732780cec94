import Availability.Keyed
import Availability.Text.Utf8

/-!
# File trees

A tree has the files and directories below a directory. The entries of a directory are in the order
of their names. What may not be read is there, but nothing is known of what is in it.
-/
namespace Availability.Files

inductive Tree where
  | file (content : Text.Bytes)
  | directory (entries : List (String × Tree))
  /-- What may not be read, a directory or a file. -/
  | locked (isDirectory : Bool)
  deriving Inhabited

/-- What a walk meets: a file, or a directory that it cannot look into. -/
inductive Encounter where
  | file
  | closed
  deriving DecidableEq

namespace Tree

def empty : Tree := .directory []

def isDirectory : Tree → Bool
  | .directory _ => true
  | .file _ => false
  | .locked isDirectory => isDirectory

def isLocked : Tree → Bool
  | .locked _ => true
  | _ => false

@[simp] theorem isDirectory_file (content : Text.Bytes) : (file content).isDirectory = false := rfl

@[simp] theorem isDirectory_directory (entries : List (String × Tree)) :
    (directory entries).isDirectory = true := rfl

@[simp] theorem isDirectory_locked (b : Bool) : (locked b).isDirectory = b := rfl

/-- The names and trees of a directory. -/
def entries : Tree → List (String × Tree)
  | .directory entries => entries
  | _ => []

/-- What stands at the end of names. -/
def find? : List String → Tree → Option Tree
  | [], t => some t
  | name :: rest, .directory entries => (Keyed.get? name entries).bind (find? rest)
  | _ :: _, _ => none

@[simp] theorem find?_nil : find? [] = some := by
  funext t
  cases t <;> rfl

@[simp] theorem find?_cons_directory (name : String) (rest : List String)
    (entries : List (String × Tree)) : (directory entries).find? (name :: rest) =
      (Keyed.get? name entries).bind (find? rest) := rfl

@[simp] theorem find?_cons_file (name : String) (rest : List String) (content : Text.Bytes) :
    (file content).find? (name :: rest) = none := rfl

@[simp] theorem find?_cons_locked (name : String) (rest : List String) (b : Bool) :
    (locked b).find? (name :: rest) = none := rfl

/-- The tree with another one at the end of names, and the directories that lead to it. -/
def put : List String → Tree → Tree → Tree
  | [], _, new => new
  | name :: rest, t, new =>
    .directory (Keyed.insert name (put rest ((Keyed.get? name t.entries).getD empty) new) t.entries)

mutual

/-- What a walk meets at and below, in order, with the names that lead there; `enter` says which
directories below are looked into. -/
def walk (enter : String → Bool) : Tree → List (List String × Encounter)
  | .file _ => [([], .file)]
  | .directory entries => walkAll enter entries
  | .locked isDirectory => [([], if isDirectory then .closed else .file)]

def walkAll (enter : String → Bool) : List (String × Tree) → List (List String × Encounter)
  | [] => []
  | (name, t) :: rest =>
    (if t.isDirectory && !enter name then []
      else (walk enter t).map fun (names, e) => (name :: names, e)) ++ walkAll enter rest

end

end Tree

end Availability.Files
