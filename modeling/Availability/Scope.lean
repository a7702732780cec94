import Availability.Text.CaseFold

/-!
# Scopes

A scope belongs to a function or to the top level of a file. It knows the class around it and, for
each variable, the classes that its value may have, most recent binding only.
-/
namespace Availability

/-- A variable is told apart by its name and the scope it lives in. -/
structure Variable where
  scope : Nat
  name : String
  deriving DecidableEq

structure Scope where
  id : Nat
  /-- The class around, for `$this`, `self` and `static`. -/
  class? : Option String := none
  /-- The class that it extends, for `parent`. -/
  parent? : Option String := none
  bindings : List (String × List String) := []
  deriving DecidableEq

namespace Scope

def variableNamed (s : Scope) (name : String) : Variable :=
  ⟨s.id, name⟩

/-- Binds a variable to classes; without a class the variable is forgotten. -/
def assign (s : Scope) (name : String) (classes : List String) : Scope :=
  let others := s.bindings.filter (·.1 != name)
  { s with bindings := if classes.isEmpty then others else (name, classes) :: others }

/-- The classes that a variable may have. -/
def classesOf (s : Scope) (name : String) : List String :=
  if name == "this" then s.class?.toList
  else
    match s.bindings.find? (·.1 == name) with
    | some (_, classes) => classes
    | none => []

/-- The class that a name of a class stands for: `self`, `static` and `parent` stand for the class
around and the class it extends, if there is one. -/
def resolve? (s : Scope) (name : String) : Option String :=
  if Text.sameLetters name "self" || Text.sameLetters name "static" then s.class?
  else if Text.sameLetters name "parent" then s.parent?
  else some name

theorem classesOf_assign_self (s : Scope) {name : String} (classes : List String)
    (h : name ≠ "this") : (s.assign name classes).classesOf name = classes := by
  simp only [classesOf, beq_iff_eq, h, if_false, assign]
  cases classes with
  | nil =>
    have : (s.bindings.filter (·.1 != name)).find? (·.1 == name) = none := by
      rw [List.find?_eq_none]
      intro entry hentry
      have := (List.mem_filter.mp hentry).2
      simpa using this
    simp [this]
  | cons first rest => simp

end Scope

end Availability
