import Availability.Command.Session

/-!
# What a command looks at

The paths that a command names, itself or in its settings, so that a disk can be filled with what
stands there.
-/
namespace Availability.Files.Disk

private def step (here : List String) (name : String) : List String :=
  if name == ".." then here.dropLast else here ++ [name]

/-- The names that a path leads to when no directory stands for another. -/
def place (disk : Disk) (path : String) : List String :=
  (Path.names path).foldl step (disk.start path)

/-- Puts a file or an empty directory at a path; a directory that is there keeps its entries. -/
def add (disk : Disk) (path : String) (tree : Tree) : Disk :=
  let names := disk.place path
  if tree.isDirectory && ((disk.tree.find? names).any Tree.isDirectory) then disk
  else { disk with tree := disk.tree.put names tree }

end Availability.Files.Disk

namespace Availability.Command

open Files (Disk)

/-- The directory that a path is in. -/
private def above (disk : Disk) (path : String) : String :=
  Files.Path.ofNames (disk.place path).dropLast

private def settingPaths (disk : Disk) (given : Option String) : List String :=
  match settings disk given with
  | .ok config => config.symbols.toList ++ config.pluginFile.toList
  | .error _ => []

/-- The paths that a command names, given what is known of the disk. -/
def paths (disk : Disk) : Command → List String
  | .check args =>
    [args.path, SymbolTable.defaultFile] ++ Config.fileNames ++ args.config.toList ++
      args.symbols.toList ++ args.pluginFile.toList ++ settingPaths disk args.config
  | .generate args =>
    [args.root, args.output, above disk args.output] ++ Config.fileNames ++ args.config.toList

end Availability.Command
