import Availability.Json.Magnitude
import Availability.Json.Reader

/-!
# Taking JSON values apart

A record may be written as an object or as an array of its fields in order. Unknown fields are
passed over, a field may stand only once, and fields at the end of an array may be missing where
they have a default.
-/
namespace Availability.Json

abbrev Decoder (α : Type) := Value → Except Fault α

/-- A value of the wrong form; the value itself may be faulty. -/
def unexpected {α : Type} : Decoder α
  | .broken read _ => .error read
  | .string none => .error .malformed
  | .number text => .error (if exceedsDoubles text then .malformed else .mismatch)
  | _ => .error .mismatch

/-- Passes over a value. -/
def ignore (v : Value) : Except Fault Unit :=
  match v.firstFault? with
  | some f => .error f
  | none => .ok ()

def decodeString : Decoder String
  | .string (some s) => .ok s
  | v => unexpected v

def decodeOption {α : Type} (decode : Decoder α) : Decoder (Option α)
  | .null => .ok none
  | v => (decode v).map some

def naturalValue? (text : String) : Option Nat :=
  let cs := text.toList
  if cs.all Char.isDigit then some (cs.foldl (fun n c => n * 10 + (c.toNat - '0'.toNat)) 0)
  else none

/-- The numbers below this one fit into 64 bits. -/
def naturalBound : Nat := 0x10000000000000000

/-- A natural number of 64 bits. -/
def decodeNatural : Decoder Nat
  | .number text =>
    match naturalValue? text with
    | some n => if n < naturalBound then .ok n else unexpected (.number text)
    | none => unexpected (.number text)
  | v => unexpected v

def decodeBool : Decoder Bool
  | .bool b => .ok b
  | v => unexpected v

def endOf {α : Type} (fault : Option Fault) (result : α) : Except Fault α :=
  match fault with
  | some f => .error f
  | none => .ok result

/-- All members of an object, in order, into a state. -/
def foldMembers {σ : Type} (step : σ → String → Value → Except Fault σ) :
    List (Except Fault String × Value) → σ → Except Fault σ
  | [], s => .ok s
  | (.error f, _) :: _, _ => .error f
  | (.ok name, value) :: rest, s => do foldMembers step rest (← step s name value)

/-- The entries of an object whose values have one form. -/
def decodeEntries {α : Type} (decode : Decoder α) : Decoder (List (String × α))
  | .object members fault => do
    let entries ← foldMembers
      (fun entries name value => do return entries ++ [(name, ← decode value)]) members []
    endOf fault entries
  | v => unexpected v

def decodeItems {α : Type} (decode : Decoder α) : List Value → Except Fault (List α)
  | [] => .ok []
  | item :: rest => do return (← decode item) :: (← decodeItems decode rest)

def decodeList {α : Type} (decode : Decoder α) : Decoder (List α)
  | .array items fault => do endOf fault (← decodeItems decode items)
  | v => unexpected v

/-- A field of a record that is collected into a state. -/
structure RecordField (σ : Type) where
  name : String
  /-- Whether the field was set. -/
  isSet : σ → Bool
  set : σ → Value → Except Fault σ

/-- A field that holds one decoded value. -/
def RecordField.of {σ α : Type} (name : String) (get : σ → Option α) (put : σ → α → σ)
    (decode : Decoder α) : RecordField σ :=
  ⟨name, fun s => (get s).isSome, fun s v => do return put s (← decode v)⟩

def foldFields {σ : Type} :
    List (RecordField σ) → List Value → σ → Except Fault (σ × List Value)
  | [], values, s => .ok (s, values)
  | _ :: _, [], s => .ok (s, [])
  | f :: fs, v :: vs, s => do foldFields fs vs (← f.set s v)

/-- A record. `finish` supplies defaults and refuses a state that lacks a field. -/
def decodeRecord {σ α : Type} (fields : List (RecordField σ)) (start : σ)
    (finish : σ → Except Fault α) : Decoder α
  | .object members fault => do
    let s ← foldMembers
      (fun s name value =>
        match fields.find? (·.name == name) with
        | none => (ignore value).map fun _ => s
        | some f => if f.isSet s then .error .mismatch else f.set s value)
      members start
    match fault with
    | some f => .error f
    | none => finish s
  | .array items fault => do
    let (s, rest) ← foldFields fields items start
    if items.length < fields.length then
      match fault with
      | some f => .error f
      | none => finish s
    else
      let result ← finish s
      if !rest.isEmpty then .error .malformed else endOf fault result
  | v => unexpected v

/-- The value of a field that has to be there. -/
def required {α : Type} : Option α → Except Fault α
  | some a => .ok a
  | none => .error .mismatch

/-- A value named by a string, or by an object whose only member has that name and is null. -/
def decodeChoice {α : Type} (ofName? : String → Option α) : Decoder α
  | .object [(.ok name, .null)] none => required (ofName? name)
  | v => do required (ofName? (← decodeString v))

/-- A whole text. -/
def decodeText {α : Type} (decode : Decoder α) (text : String) : Except Fault α := do
  let (v, more) := read text
  let result ← decode v
  if more then .error .malformed else .ok result

end Availability.Json
