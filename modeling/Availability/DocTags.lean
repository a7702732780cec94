import Availability.Text.Whitespace
import Availability.Text.Word

/-!
# Tags of doc comments

The first `@since` tag with a value tells which version brought a symbol; later ones tell of
changes.
-/
namespace Availability

structure DocTags where
  since : Option String := none
  deprecated : Bool := false
  /-- The word after the first `@deprecated` tag, on the same line. -/
  deprecatedValue : Option String := none
  deriving DecidableEq

namespace DocTags

def isValueChar (c : Char) : Bool :=
  Text.isWord c || c == '.' || c == '-'

/-- The value at the front of a text, if there is one. -/
def value? (cs : List Char) : Option String :=
  match cs.takeWhile isValueChar with
  | [] => none
  | value => some (String.ofList value)

/-- The result of the first place after an occurrence of `tag` that gives one. -/
def firstAfter {α : Type} (tag : List Char) (f : List Char → Option α) :
    List Char → Option α
  | [] => none
  | c :: cs =>
    match (Text.dropStart? tag (c :: cs)).bind f with
    | some a => some a
    | none => firstAfter tag f cs

def sinceValue? (cs : List Char) : Option String :=
  match cs.takeWhile Text.isWhitespace with
  | [] => none
  | _ :: _ => value? (cs.dropWhile Text.isWhitespace)

def isBlank (c : Char) : Bool := c == ' ' || c == '\t'

/-- The word after a `@deprecated` tag; the tag must not go on as a longer word. -/
def deprecation? (cs : List Char) : Option (Option String) :=
  if cs.head?.any Text.isWord then none
  else
    match cs.takeWhile isBlank with
    | [] => some none
    | _ :: _ => some (value? (cs.dropWhile isBlank))

/-- The tags of a doc comment. -/
def ofComment (doc : String) : DocTags :=
  let cs := doc.toList
  let deprecation := firstAfter "@deprecated".toList deprecation? cs
  { since := firstAfter "@since".toList sinceValue? cs
    deprecated := deprecation.isSome
    deprecatedValue := deprecation.join }

end DocTags

end Availability
