/-!
# JSON values

A value keeps what was read before a fault: where a text stops being JSON, the value has a fault in
the place where it was found. Whoever takes a value apart in the order of the text then meets the
first thing that is wrong, be it a fault or a value of the wrong form.
-/
namespace Availability.Json

/-- Why a text is not what was asked for. -/
inductive Fault where
  /-- The text ends too early. -/
  | unfinished
  /-- The text is no JSON. -/
  | malformed
  /-- The text is JSON of another form. -/
  | mismatch
  deriving DecidableEq, Repr

/-- A string is missing where an escape in it is no character, and so is the name of a member, which
then has the fault that a reader meets there. -/
inductive Value where
  | null
  | bool (b : Bool)
  /-- A number as it is written. -/
  | number (text : String)
  | string (text : Option String)
  | array (items : List Value) (fault : Option Fault)
  | object (members : List (Except Fault String × Value)) (fault : Option Fault)
  /-- What is no value: the fault that a reader meets, and the one of whoever passes over it. -/
  | broken (read passed : Fault)
  deriving Inhabited

namespace Value

def text (s : String) : Value := .string (some s)

def natural (n : Nat) : Value := .number (String.ofList (Nat.toDigits 10 n))

def list (items : List Value) : Value := .array items none

def record (members : List (String × Value)) : Value :=
  .object (members.map fun (name, value) => (.ok name, value)) none

mutual

/-- The first fault in a value that nobody looks into. -/
def firstFault? : Value → Option Fault
  | .array items fault => (firstFaultIn? items).or fault
  | .object members fault => (firstFaultAt? members).or fault
  | .broken _ passed => some passed
  | .null => none
  | .bool _ => none
  | .number _ => none
  | .string _ => none

def firstFaultIn? : List Value → Option Fault
  | [] => none
  | item :: rest => (firstFault? item).or (firstFaultIn? rest)

def firstFaultAt? : List (Except Fault String × Value) → Option Fault
  | [] => none
  | (_, value) :: rest => (firstFault? value).or (firstFaultAt? rest)

end

end Value

end Availability.Json
