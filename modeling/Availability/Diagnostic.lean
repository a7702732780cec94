import Availability.Version

/-!
# Diagnostics
-/
namespace Availability

/-- What a diagnostic is about. -/
inductive Issue where
  | functionNotAvailable
  | methodNotAvailable
  deriving DecidableEq

namespace Issue

def name : Issue → String
  | functionNotAvailable => "function_not_available"
  | methodNotAvailable => "method_not_available"

def description : Issue → String
  | functionNotAvailable => "Function introduced after the minimum supported version"
  | methodNotAvailable => "Method introduced after the minimum supported version"

def ofName? : String → Option Issue
  | "function_not_available" => some functionNotAvailable
  | "method_not_available" => some methodNotAvailable
  | _ => none

@[simp] theorem ofName?_name (i : Issue) : ofName? i.name = some i := by
  cases i <;> rfl

end Issue

structure Diagnostic where
  issue : Issue
  message : String
  file : String
  line : Nat
  symbol : String
  since : Version
  deriving DecidableEq

end Availability
