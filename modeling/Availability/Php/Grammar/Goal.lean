import Availability.Php.Grammar.Rule

/-!
# Goals

The rules for expressions and for statements refer to each other. A `Goal` names what is read where
the circle closes, and every rule that takes part is written against rules for all goals.
-/
namespace Availability.Php.Grammar

/-- Where an expression stands: its operators bind at least as strongly as a level, and a statement
may end after it or not. -/
structure Place where
  level : Nat
  ends : Bool

inductive Goal where
  | expression (place : Place)
  /-- An operand with what stands before it and is applied to it; `ends` says whether a statement
  may end after it. -/
  | unary (ends : Bool)
  /-- An operand with what is applied to it. -/
  | primary (ends : Bool)
  /-- What a value can be stored in. -/
  | variable (ends : Bool)
  /-- An expression, or a pattern in brackets or after `list` where that is possible. -/
  | expressionOrPattern (brackets lists : Bool)
  | parameters
  /-- A method that a class takes over from a trait. -/
  | traitMethod
  | statement

abbrev Rules := Goal → Rule

namespace Rules

variable (r : Rules)

/-- An expression of any level that something closes. -/
def whole : Rule := r (.expression ⟨0, false⟩)

/-- An expression of any level. -/
def anyLevel (ends : Bool) : Rule := r (.expression ⟨0, ends⟩)

/-- An expression of any level at the end of a statement. -/
def final : Rule := r.anyLevel true

def statement : Rule := r .statement

end Rules

end Availability.Php.Grammar
