import Availability.Keyed
import Availability.Text.CaseFold
import Availability.Version

/-!
# The symbol table

Which version brought a function or method, and which class extends which. Methods have keys
`Class::method`. A symbol is found under its exact name first, then through an index by small
letters, which has the first of the names that differ in the case of letters only.
-/
namespace Availability

structure SymbolEntry where
  since : Version
  deprecated : Option Version := none
  deriving DecidableEq

structure ClassEntry where
  parent : Option String := none
  deriving DecidableEq

/-- The names of symbols by what they are in small letters. Of the names that differ in case only
the first stays. -/
def foldNames (symbols : List (String × SymbolEntry)) : List (String × String) :=
  symbols.foldl (fun folded entry => Keyed.insertNew (Text.lower entry.1) entry.1 folded) []

theorem get?_foldNames (symbols : List (String × SymbolEntry)) (letters : String) :
    Keyed.get? letters (foldNames symbols) =
      (symbols.find? fun entry => Text.lower entry.1 == letters).map (·.1) := by
  have h := Keyed.get?_foldl_insertNew (fun entry : String × SymbolEntry => Text.lower entry.1)
    (·.1) symbols [] letters
  simpa [foldNames] using h

/-- The index is built with the table and never changed. -/
structure SymbolTable where
  symbols : List (String × SymbolEntry) := []
  classes : List (String × ClassEntry) := []
  folded : List (String × String) := foldNames symbols
  folded_eq : folded = foldNames symbols := by exact rfl
  deriving DecidableEq

namespace SymbolTable

theorem ext {a b : SymbolTable} (hsymbols : a.symbols = b.symbols)
    (hclasses : a.classes = b.classes) : a = b := by
  obtain ⟨symbols, classes, folded, hfolded⟩ := a
  obtain ⟨symbols', classes', folded', hfolded'⟩ := b
  obtain rfl : symbols = symbols' := hsymbols
  obtain rfl : classes = classes' := hclasses
  obtain rfl : folded = folded' := hfolded.trans hfolded'.symm
  rfl

/-- The name and entry that a name is found under. -/
def find? (table : SymbolTable) (name : String) : Option (String × SymbolEntry) :=
  match Keyed.get? name table.symbols with
  | some entry => some (name, entry)
  | none => do
    let key ← Keyed.get? (Text.lower name) table.folded
    return (key, ← Keyed.get? key table.symbols)

/-- The first of the symbols that agree with a name up to case is the one that its key leads to. -/
theorem get?_of_find? {symbols : List (String × SymbolEntry)} {letters : String}
    {found : String × SymbolEntry}
    (h : symbols.find? (fun entry => Text.lower entry.1 == letters) = some found) :
    Keyed.get? found.1 symbols = some found.2 := by
  induction symbols with
  | nil => cases h
  | cons entry rest ih =>
    rw [Keyed.get?_cons]
    by_cases hentry : Text.lower entry.1 = letters
    · obtain rfl : entry = found := by simpa [hentry] using h
      simp
    · have hrest : rest.find? (fun entry => Text.lower entry.1 == letters) = some found := by
        simpa [hentry] using h
      have hletters : Text.lower found.1 = letters := by simpa using List.find?_some hrest
      have hne : found.1 ≠ entry.1 := fun heq => hentry (heq ▸ hletters)
      rw [if_neg hne, ih hrest]

/-- What is found through the index is found by going through the symbols. -/
theorem find?_eq_first (table : SymbolTable) (name : String) :
    table.find? name =
      match Keyed.get? name table.symbols with
      | some entry => some (name, entry)
      | none => table.symbols.find? fun entry => Text.sameLetters entry.1 name := by
  unfold find? Text.sameLetters
  rw [table.folded_eq, get?_foldNames]
  cases hfirst : table.symbols.find? fun entry => Text.lower entry.1 == Text.lower name with
  | none => rfl
  | some found =>
    have hget := get?_of_find? hfirst
    simp [hget]

def contains (table : SymbolTable) (name : String) : Bool :=
  (table.find? name).isSome

def size (table : SymbolTable) : Nat :=
  table.symbols.length

def isEmpty (table : SymbolTable) : Bool :=
  table.symbols.isEmpty

end SymbolTable

end Availability
