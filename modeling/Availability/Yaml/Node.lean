import Availability.Yaml.Token

/-!
# YAML documents

A node is a scalar, a sequence or a mapping. A node that is left out is an empty plain scalar.
-/
namespace Availability.Yaml

inductive Node where
  /-- A text, and whether it was written without quotes. -/
  | scalar (plain : Bool) (text : String)
  | sequence (items : List Node)
  | mapping (pairs : List (Node × Node))
  deriving Inhabited

namespace Node

/-- What stands where a node is left out. -/
def absent : Node := .scalar true ""

abbrev Parse (α : Type) := List Token → Option (α × List Token)

/-- A node unless one of the given tokens follows, in whose place none was written. -/
private def orAbsent (stops : List Token) (node : Parse Node) : Parse Node := fun ts =>
  match ts with
  | [] => none
  | t :: _ => if stops.contains t then some (absent, ts) else node ts

mutual

/-- A node. In a block, collections may be shown by indentation; where `dashes` is set a sequence
may also stand without further indentation. -/
def parse : Nat → (inBlock dashes : Bool) → Parse Node
  | 0, _, _, _ => none
  | fuel + 1, inBlock, dashes, ts =>
    match ts with
    | .scalar plain text :: rest => some (.scalar plain text, rest)
    | .flowSequenceStart :: rest => flowItems fuel true [] rest
    | .flowMappingStart :: rest => flowPairs fuel true [] rest
    | .blockSequenceStart :: rest => if inBlock then blockItems fuel [] rest else none
    | .blockMappingStart :: rest => if inBlock then blockPairs fuel [] rest else none
    | .blockEntry :: _ => if dashes then dashedItems fuel [] ts else none
    | _ => none

/-- The items of a sequence shown by indentation. -/
def blockItems : Nat → List Node → Parse Node
  | 0, _, _ => none
  | fuel + 1, items, ts =>
    match ts with
    | .blockEntry :: rest =>
      match orAbsent [.blockEntry, .blockEnd] (parse fuel true false) rest with
      | none => none
      | some (item, rest) => blockItems fuel (items ++ [item]) rest
    | .blockEnd :: rest => some (.sequence items, rest)
    | _ => none

/-- The items of a sequence without indentation of its own; it ends where no dash follows. -/
def dashedItems : Nat → List Node → Parse Node
  | 0, _, _ => none
  | fuel + 1, items, ts =>
    match ts with
    | .blockEntry :: rest =>
      match orAbsent [.blockEntry, .key, .value, .blockEnd] (parse fuel true false) rest with
      | none => none
      | some (item, rest) => dashedItems fuel (items ++ [item]) rest
    | _ => some (.sequence items, ts)

/-- The pairs of a mapping shown by indentation. -/
def blockPairs : Nat → List (Node × Node) → Parse Node
  | 0, _, _ => none
  | fuel + 1, pairs, ts =>
    match ts with
    | .key :: rest =>
      match orAbsent [.key, .value, .blockEnd] (parse fuel true true) rest with
      | none => none
      | some (key, .value :: rest) =>
        match orAbsent [.key, .value, .blockEnd] (parse fuel true true) rest with
        | none => none
        | some (value, rest) => blockPairs fuel (pairs ++ [(key, value)]) rest
      | some (key, rest) => blockPairs fuel (pairs ++ [(key, absent)]) rest
    | .blockEnd :: rest => some (.mapping pairs, rest)
    | _ => none

/-- The items of a sequence in brackets. An item with a colon is a mapping with one pair. -/
def flowItems : Nat → (first : Bool) → List Node → Parse Node
  | 0, _, _, _ => none
  | fuel + 1, first, items, ts =>
    match first, ts with
    | _, .flowSequenceEnd :: rest => some (.sequence items, rest)
    | false, .flowEntry :: .flowSequenceEnd :: rest => some (.sequence items, rest)
    | false, .flowEntry :: rest => flowItem fuel items rest
    | true, rest => flowItem fuel items rest
    | false, _ => none

def flowItem : Nat → List Node → Parse Node
  | 0, _, _ => none
  | fuel + 1, items, ts =>
    match ts with
    | .key :: rest =>
      match flowPair fuel .flowSequenceEnd rest with
      | none => none
      | some (pair, rest) => flowItems fuel false (items ++ [.mapping [pair]]) rest
    | _ =>
      match parse fuel false false ts with
      | none => none
      | some (item, rest) => flowItems fuel false (items ++ [item]) rest

/-- A key and its value in brackets or braces, after the mark of the key. -/
def flowPair : Nat → Token → Parse (Node × Node)
  | 0, _, _ => none
  | fuel + 1, close, ts =>
    match orAbsent [.value, .flowEntry, close] (parse fuel false false) ts with
    | none => none
    | some (key, .value :: rest) =>
      match orAbsent [.flowEntry, close] (parse fuel false false) rest with
      | none => none
      | some (value, rest) => some ((key, value), rest)
    | some (key, rest) => some ((key, absent), rest)

/-- The pairs of a mapping in braces. A node without a colon is a key without a value. -/
def flowPairs : Nat → (first : Bool) → List (Node × Node) → Parse Node
  | 0, _, _, _ => none
  | fuel + 1, first, pairs, ts =>
    match first, ts with
    | _, .flowMappingEnd :: rest => some (.mapping pairs, rest)
    | false, .flowEntry :: .flowMappingEnd :: rest => some (.mapping pairs, rest)
    | false, .flowEntry :: rest => flowMember fuel pairs rest
    | true, rest => flowMember fuel pairs rest
    | false, _ => none

def flowMember : Nat → List (Node × Node) → Parse Node
  | 0, _, _ => none
  | fuel + 1, pairs, ts =>
    match ts with
    | .key :: rest =>
      match flowPair fuel .flowMappingEnd rest with
      | none => none
      | some (pair, rest) => flowPairs fuel false (pairs ++ [pair]) rest
    | _ =>
      match parse fuel false false ts with
      | none => none
      | some (key, rest) => flowPairs fuel false (pairs ++ [(key, absent)]) rest

end

/-- The node of a document; the second result has the tokens after it. -/
def ofTokens? (ts : List Token) : Option (Node × List Token) :=
  let fuel := 4 * ts.length + 4
  match ts with
  | .documentStart :: rest =>
    match rest with
    | [] => some (absent, [])
    | .documentStart :: _ => some (absent, rest)
    | .documentEnd :: _ => some (absent, rest)
    | _ => parse fuel true false rest
  | _ => parse fuel true false ts

/-- A text that is YAML. -/
inductive Document where
  | empty
  | node (n : Node)
  deriving Inhabited

/-- The document of a text, which may hold one at most. -/
def read (text : String) : Option Document := do
  match ← Token.ofText? text with
  | [] => return .empty
  | ts =>
    let (node, rest) ← ofTokens? ts
    if rest.all (· == .documentEnd) then return .node node else none

end Node

end Availability.Yaml
