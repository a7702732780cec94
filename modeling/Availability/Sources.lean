import Availability.Files.Disk

/-!
# Which files are looked at

Sources below a directory, in the order of a walk that descends into a directory where its name
stands among its siblings. A directory that cannot be looked into ends the walk.
-/
namespace Availability

open Files

/-- What a walk cannot go through. -/
structure WalkError where
  path : String
  cause : Files.Error
  deriving DecidableEq

def WalkError.message (e : WalkError) : String :=
  "IO error for operation on " ++ e.path ++ ": " ++ e.cause.message

namespace Sources

/-- Directories of dependencies, which are not checked. -/
def skippedDirectories : List String := ["vendor", "node_modules"]

/-- Whether the sources of a directory are checked. -/
def entersDirectory (name : String) : Bool :=
  !(name.toList.head? == some '.' || skippedDirectories.contains name)

/-- The names of the files that a walk met below a root, unless it could not go on. -/
def filesMet (root : String) (met : List (List String × Encounter)) :
    Except WalkError (List (List String)) :=
  met.mapM fun
    | (names, .file) => .ok names
    | (names, .closed) => .error ⟨Path.below root names, .denied⟩

/-- Whether a file below a directory is checked; `excluded` is asked for its path from there. -/
def isChecked (excluded : String → Bool) (names : List String) : Bool :=
  names.getLast?.any Path.isSource && !excluded (Path.relative names)

/-- The paths of the sources to check. A root that is a file is taken whatever its name. -/
def collect (disk : Disk) (excluded : String → Bool) (root : String) :
    Except WalkError (List String) :=
  match disk.resolve root with
  | .error cause => .error ⟨root, cause⟩
  | .ok (_, tree) =>
    if tree.isDirectory then do
      let files ← filesMet root (tree.walk entersDirectory)
      return (files.filter (isChecked excluded)).map (Path.below root)
    else .ok [root]

/-- Whether a path has one of the given starts. -/
def isExcluded (exclusions : List String) (relative : String) : Bool :=
  exclusions.any fun start => Text.startsWith start.toList relative.toList

/-- Whether symbols are taken from a file at or below a root; a root that is a file has no names. -/
def isDeclaring (exclusions : List String) (root : String) (names : List String) : Bool :=
  (names.getLast?.or (Path.fileName? root)).any Path.isSource &&
    !isExcluded exclusions (Path.withSlashes (Path.relative names))

/-- The names of the sources at and below a root from which symbols are taken. -/
def declaring (disk : Disk) (exclusions : List String) (root : String) :
    Except WalkError (List (List String)) :=
  match disk.resolve root with
  | .error cause => .error ⟨root, cause⟩
  | .ok (_, tree) => do
    let files ← filesMet root (tree.walk fun _ => true)
    return files.filter (isDeclaring exclusions root)

end Sources

end Availability
