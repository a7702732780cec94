import Availability.Json.Value

/-!
# Writing JSON

Values are written with two blanks for each level, one member or item a line; empty objects and
arrays stay on one line.
-/
namespace Availability.Json

def hexDigit (n : Nat) : Char :=
  if n < 10 then Char.ofNat ('0'.toNat + n) else Char.ofNat ('a'.toNat + n - 10)

def escapeChar (c : Char) : List Char :=
  match c with
  | '"' => ['\\', '"']
  | '\\' => ['\\', '\\']
  | '\x08' => ['\\', 'b']
  | '\x0c' => ['\\', 'f']
  | '\n' => ['\\', 'n']
  | '\r' => ['\\', 'r']
  | '\t' => ['\\', 't']
  | c =>
    if c.toNat < 0x20 then ['\\', 'u', '0', '0', hexDigit (c.toNat / 16), hexDigit (c.toNat % 16)]
    else [c]

/-- A text between quotes. -/
def quoted (s : String) : List Char :=
  '"' :: s.toList.flatMap escapeChar ++ ['"']

def newline (level : Nat) : List Char :=
  '\n' :: List.replicate (2 * level) ' '

mutual

def pretty (level : Nat) : Value → List Char
  | .null => "null".toList
  | .bool true => "true".toList
  | .bool false => "false".toList
  | .number text => text.toList
  | .string text => quoted (text.getD "")
  | .array [] _ => ['[', ']']
  | .array (item :: rest) _ =>
    '[' :: (newline (level + 1) ++ pretty (level + 1) item ++ prettyItems (level + 1) rest ++
      newline level ++ [']'])
  | .object [] _ => ['{', '}']
  | .object ((key, value) :: rest) _ =>
    '{' :: (newline (level + 1) ++ quoted (key.toOption.getD "") ++ [':', ' '] ++
      pretty (level + 1) value ++ prettyMembers (level + 1) rest ++ newline level ++ ['}'])
  | .broken _ _ => []

def prettyItems (level : Nat) : List Value → List Char
  | [] => []
  | item :: rest => ',' :: (newline level ++ pretty level item ++ prettyItems level rest)

def prettyMembers (level : Nat) : List (Except Fault String × Value) → List Char
  | [] => []
  | (key, value) :: rest =>
    ',' :: (newline level ++ quoted (key.toOption.getD "") ++ [':', ' '] ++ pretty level value ++
      prettyMembers level rest)

end

/-- The text of a value. -/
def Value.render (v : Value) : String :=
  String.ofList (pretty 0 v)

end Availability.Json
