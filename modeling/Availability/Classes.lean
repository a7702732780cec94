import Availability.SymbolTable

/-!
# Class ancestry

`Classes` knows classes and the classes they extend. Names are compared without the case of
letters, and the first class of a name stays.
-/
namespace Availability

structure ClassRecord where
  name : String
  parent : Option String
  deriving DecidableEq

structure Classes where
  records : List ClassRecord := []

namespace Classes

def find? (classes : Classes) (name : String) : Option ClassRecord :=
  classes.records.find? fun record => Text.sameLetters record.name name

/-- Adds a class unless its name is known; tells whether it was added. -/
def insert (classes : Classes) (name : String) (parent : Option String) : Classes × Bool :=
  if (classes.find? name).isSome then (classes, false)
  else (⟨classes.records ++ [⟨name, parent⟩]⟩, true)

/-- Adds classes in order. -/
def insertAll (classes : Classes) (declared : List ClassRecord) : Classes :=
  declared.foldl (fun classes record => (classes.insert record.name record.parent).1) classes

/-- The classes of a symbol table. -/
def ofTable (table : SymbolTable) : Classes :=
  insertAll {} (table.classes.map fun (name, entry) => ⟨name, entry.parent⟩)

def size (classes : Classes) : Nat :=
  classes.records.length

/-- The classes above a record, nearest first. The chain ends at a class without parent, after the
name of an unknown class, and before a class that it has seen. Each step sees a further known class,
so as many steps as there are classes are enough. -/
def chain (classes : Classes) : Nat → List String → ClassRecord → List String
  | 0, _, _ => []
  | steps + 1, seen, record =>
    match record.parent with
    | none => []
    | some parent =>
      if seen.contains (Text.lower parent) then []
      else
        match classes.find? parent with
        | none => [parent]
        | some next => next.name :: chain classes steps (Text.lower parent :: seen) next

/-- The ancestors of a known class, nearest first. -/
def ancestors? (classes : Classes) (name : String) : Option (List String) :=
  match classes.find? name with
  | none => none
  | some record => some (classes.chain (classes.size + 1) [Text.lower record.name] record)

def addUnique (order : List String) (name : String) : List String :=
  if order.any (Text.sameLetters name) then order else order ++ [name]

/-- The given classes, then the ancestors of each, each class once. -/
def probeOrder (classes : Classes) (names : List String) : List String :=
  let above := names.flatMap fun name => (classes.ancestors? name).getD []
  (names ++ above).foldl addUnique []

end Classes

end Availability
