import Availability.Text.CaseFold
import Availability.Text.Utf8
import Availability.Text.Whitespace

/-!
# File headers

A plugin or theme states facts about itself in comment lines `Name: value` at the top of a file. The
first line of that form counts. A name is compared by simple case folding, and comment marks and an
opening tag may stand before it.
-/
namespace Availability.Header

/-- The header with the least platform version that is supported. -/
def requiresAtLeast : String := "Requires at least"

/-- The number of bytes at the top of a file that are searched. -/
def searchedBytes : Nat := 8192

/-- Line endings as line feeds. -/
def normalizeEndings : List Char → List Char
  | [] => []
  | '\r' :: '\n' :: cs => '\n' :: normalizeEndings cs
  | '\r' :: cs => '\n' :: normalizeEndings cs
  | c :: cs => c :: normalizeEndings cs

/-- What follows a given start, compared by case folding. -/
def dropFolded? : List Char → List Char → Option (List Char)
  | [], cs => some cs
  | _ :: _, [] => none
  | p :: ps, c :: cs => if Text.fold p == Text.fold c then dropFolded? ps cs else none

def isDecoration (c : Char) : Bool :=
  [' ', '\t', '/', '*', '#', '@'].contains c

/-- What follows the name and its colon, after as many decorations as can be passed over. -/
def afterName? (name : List Char) : List Char → Option (List Char)
  | [] => dropFolded? (name ++ [':']) []
  | c :: cs =>
    if isDecoration c then (afterName? name cs).or (dropFolded? (name ++ [':']) (c :: cs))
    else dropFolded? (name ++ [':']) (c :: cs)

/-- What follows an opening tag, after blanks. -/
def afterTag? (cs : List Char) : Option (List Char) :=
  dropFolded? "<?php".toList (cs.dropWhile fun c => c == ' ' || c == '\t')

/-- The text after the name, where a line starts. -/
def atLine? (name cs : List Char) : Option (List Char) :=
  (((afterTag? cs).bind (afterName? name)).or (afterName? name cs)).map
    (·.takeWhile (· != '\n'))

/-- The text after the name on the first line that has it; `start` tells whether a line starts
here. -/
def firstLine? (name : List Char) (start : Bool) : List Char → Option (List Char)
  | [] => none
  | c :: cs =>
    ((if start then atLine? name (c :: cs) else none)).or (firstLine? name (c == '\n') cs)

/-- What stands before the end of a comment or of the code. -/
def beforeEnd : List Char → List Char
  | [] => []
  | '*' :: '/' :: _ => []
  | '?' :: '>' :: _ => []
  | c :: cs => c :: beforeEnd cs

/-- The value of a header; an empty one counts as missing. -/
def value? (name content : String) : Option String :=
  match firstLine? name.toList true (normalizeEndings content.toList) with
  | none => none
  | some text =>
    let value := Text.trimChars (beforeEnd text)
    if value.isEmpty then none else some (String.ofList value)

/-- The value of a header of a file. -/
def ofBytes? (name : String) (content : Text.Bytes) : Option String :=
  value? name (String.ofList (Text.decodeLenient (content.take searchedBytes)))

end Availability.Header
