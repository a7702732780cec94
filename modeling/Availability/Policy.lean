import Availability.Candidate
import Availability.Diagnostic
import Availability.Guards

/-!
# Policies

A policy says what calls are held against: a symbol table, the classes known, and the least version
that has to be supported. A call is reported when its symbol is newer than that version and no guard
protects it.
-/
namespace Availability

structure Policy where
  table : SymbolTable
  minimum : Version
  platform : String := "WordPress"
  classes : Classes

/-- A reported call, apart from where it stands. -/
structure Finding where
  issue : Issue
  symbol : String
  since : Version
  message : String
  deriving DecidableEq

namespace Policy

def finding (p : Policy) (issue : Issue) (symbol : String) (since : Version) : Finding where
  issue
  symbol
  since
  message := symbol ++ "() is only available since " ++ p.platform ++ " version " ++
    since.toString ++ "."

/-- The finding about a candidate under guards. The first key of a method that the table has
decides. -/
def evaluate (p : Policy) (guards : Guards) : Candidate → Option Finding
  | .function name =>
    match p.table.find? name with
    | none => none
    | some (symbol, entry) =>
      if entry.since ≤ p.minimum ∨ guards.coversFunction name then none
      else some (p.finding .functionNotAvailable symbol entry.since)
  | .method name receiver classes keys =>
    match keys.findSome? p.table.find? with
    | none => none
    | some (symbol, entry) =>
      if entry.since ≤ p.minimum ∨ guards.coversMethod receiver classes name then none
      else some (p.finding .methodNotAvailable symbol entry.since)

end Policy

end Availability
