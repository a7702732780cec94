/-!
# Whitespace, trimming and lines

`isWhitespace` is the property White_Space, so trimming removes a no-break space as well as a blank.
The functions work on lists of characters; `trim` is also given on strings.
-/
namespace Availability.Text

/-- The property White_Space: 25 characters. -/
def isWhitespace (c : Char) : Bool :=
  let n := c.toNat
  (9 ≤ n && n ≤ 13) || n == 0x20 || n == 0x85 || n == 0xA0 || n == 0x1680 ||
    (0x2000 ≤ n && n ≤ 0x200A) || n == 0x2028 || n == 0x2029 || n == 0x202F || n == 0x205F ||
    n == 0x3000

/-- Removes whitespace at the start. -/
def trimStart (cs : List Char) : List Char :=
  cs.dropWhile isWhitespace

/-- Removes whitespace at the end. -/
def trimEnd (cs : List Char) : List Char :=
  (cs.reverse.dropWhile isWhitespace).reverse

/-- Removes whitespace at both ends. -/
def trimChars (cs : List Char) : List Char :=
  trimEnd (trimStart cs)

/-- Removes whitespace at both ends. -/
def trim (s : String) : String :=
  String.ofList (trimChars s.toList)

/-- The pieces between the occurrences of a separator; one more than there are separators. -/
def split (sep : Char) : List Char → List (List Char)
  | [] => [[]]
  | c :: cs =>
    if c == sep then [] :: split sep cs
    else
      match split sep cs with
      | [] => [[c]]
      | piece :: pieces => (c :: piece) :: pieces

def dropLast (c : Char) (cs : List Char) : List Char :=
  if cs.getLast? == some c then cs.dropLast else cs

/-- The lines of a text: a line ends at a line feed, with a carriage return before it if there is
one, and what follows the last line feed is a line unless it is empty. -/
def lines (cs : List Char) : List (List Char) :=
  let pieces := split '\n' cs
  let ended := pieces.dropLast.map (dropLast '\r')
  match pieces.getLast? with
  | none => ended
  | some last => if last.isEmpty then ended else ended ++ [last]

/-- What follows a given start, if the text has that start. -/
def dropStart? : List Char → List Char → Option (List Char)
  | [], cs => some cs
  | _ :: _, [] => none
  | p :: ps, c :: cs => if p == c then dropStart? ps cs else none

theorem dropStart?_eq_some_iff {start cs rest : List Char} :
    dropStart? start cs = some rest ↔ cs = start ++ rest := by
  induction start generalizing cs with
  | nil => simp [dropStart?]
  | cons p ps ih =>
    cases cs with
    | nil => simp [dropStart?]
    | cons c cs =>
      by_cases h : p = c
      · simp [dropStart?, h, ih]
      · simp [dropStart?, h, Ne.symm h]

/-- Whether a text has a given start. -/
def startsWith (start cs : List Char) : Bool :=
  (dropStart? start cs).isSome

end Availability.Text
