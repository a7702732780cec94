import Availability.Text.Utf8

/-!
# Path patterns

A pattern is a sequence of pieces and applies to the bytes of a whole path. A star or question mark
also stands for slashes. Pieces are taken from the last to the first, and for each of them it is
settled at once from which places of the path on the pattern applies, so no place is looked at
twice.
-/
namespace Availability.Glob

open Text (Bytes)

inductive Piece where
  | literal (c : Char)
  /-- One byte. -/
  | any
  /-- Any bytes. -/
  | star
  /-- Directories at the start of a path, or none. -/
  | leadingDirectories
  /-- Directories inside a path, or none, with the slashes around them. -/
  | innerDirectories
  /-- A slash and all that follows. -/
  | everythingBelow
  /-- One byte in one of the ranges, or in none of them. -/
  | oneOf (negated : Bool) (ranges : List (UInt8 × UInt8))
  /-- One of several patterns. Those that are empty do not count. -/
  | choice (options : List (List Piece))

abbrev Pattern := List Piece

private def slash : UInt8 := '/'.toNat.toUInt8

/-- For the rests of a path, the whole path first and the empty one last, whether something holds.
-/
abbrev Places := List Bool

/-- Only the end of the path. -/
def atEnd : Bytes → Places
  | [] => [true]
  | _ :: bs => false :: atEnd bs

private def first (places : Places) : Bool :=
  places.headD false

/-- After any number of bytes. -/
def somewhere : Places → Places
  | [] => []
  | here :: later =>
    let later := somewhere later
    (here || first later) :: later

/-- After a byte. -/
def afterByte (p : UInt8 → Bool) : Bytes → Places → Places
  | b :: bs, _ :: later => (p b && first later) :: afterByte p bs later
  | _, _ => [false]

/-- After some slash. -/
def afterSomeSlash (path : Bytes) (places : Places) : Places :=
  somewhere (afterByte (· == slash) path places)

def afterBytes (path start : Bytes) (places : Places) : Places :=
  start.foldr (fun b places => afterByte (· == b) path places) places

/-- Where one or the other holds. -/
def either (p q : Places) : Places :=
  List.zipWith or p q

mutual

/-- Whether a piece stands for no text at all. -/
def Piece.isVoid : Piece → Bool
  | .choice options => allVoid options
  | _ => false

def isVoid : Pattern → Bool
  | [] => true
  | p :: ps => p.isVoid && isVoid ps

def allVoid : List Pattern → Bool
  | [] => true
  | o :: os => isVoid o && allVoid os

end

mutual

/-- Where a piece applies such that one of the given places follows. -/
def Piece.places (path : Bytes) (next : Places) : Piece → Places
  | .literal c => afterBytes path (Text.encode (String.singleton c)) next
  | .any => afterByte (fun _ => true) path next
  | .star => somewhere next
  | .leadingDirectories => either next (afterSomeSlash path next)
  | .innerDirectories =>
    afterByte (· == slash) path (either next (afterSomeSlash path next))
  | .everythingBelow => afterByte (· == slash) path (somewhere next)
  | .oneOf negated ranges =>
    afterByte (fun b => (ranges.any fun (lo, hi) => lo ≤ b && b ≤ hi) != negated) path next
  | .choice options =>
    if allVoid options then next else choicePlaces path next options

/-- Where a pattern applies such that one of the given places follows. -/
def places (path : Bytes) (next : Places) : Pattern → Places
  | [] => next
  | p :: ps => p.places path (places path next ps)

/-- Where one of several patterns applies. -/
def choicePlaces (path : Bytes) (next : Places) : List Pattern → Places
  | [] => next.map fun _ => false
  | o :: os =>
    let others := choicePlaces path next os
    if isVoid o then others else either (places path next o) others

end

/-- Whether a pattern applies to the bytes of a whole path. -/
def applies (pattern : Pattern) (path : Bytes) : Bool :=
  first (places path (atEnd path) pattern)

/-- Whether a pattern applies to a path; directories alone apply to every path. -/
def accepts (pattern : Pattern) (path : String) : Bool :=
  match pattern with
  | [.leadingDirectories] => true
  | _ => applies pattern (Text.encode path)

/-- Whether one of several patterns applies to a path. -/
def acceptsAny (patterns : List Pattern) (path : String) : Bool :=
  patterns.any fun pattern => accepts pattern path

end Availability.Glob
