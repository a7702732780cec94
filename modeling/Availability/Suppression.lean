import Availability.Diagnostic
import Availability.Text.Whitespace

/-!
# Suppression comments

A directive such as `// wpcompat:ignore function_not_available - reason` silences diagnostics. It
stands in a comment of one of three styles and is read line by line; a line has at most one
suppression.
-/
namespace Availability

/-- Which lines of its file a suppression covers. -/
inductive Reach where
  | line
  | nextLine
  | file
  deriving DecidableEq

structure Suppression where
  /-- The name of an issue, or `*` for every issue. -/
  rule : String
  reason : String
  file : String
  /-- The line of the directive, 0 if it covers the file. -/
  line : Nat
  reach : Reach
  deriving DecidableEq

namespace Suppression

/-- What a directive asks for. -/
inductive Request where
  | ignore
  | ignoreNextLine
  | ignoreFile
  deriving DecidableEq

structure Directive where
  request : Request
  rule : List Char
  reason : List Char
  deriving DecidableEq

def marker : List Char := "wpcompat:ignore".toList

/-- The request at the front of a comment, and what follows it. Whitespace has to follow. -/
def request? (cs : List Char) : Option (Request × List Char) :=
  match Text.dropStart? marker (Text.trimStart cs) with
  | none => none
  | some rest =>
    let (request, rest) :=
      match Text.dropStart? "-file".toList rest, Text.dropStart? "-next-line".toList rest with
      | some rest, _ => (Request.ignoreFile, rest)
      | none, some rest => (.ignoreNextLine, rest)
      | none, none => (.ignore, rest)
    if rest.head?.any Text.isWhitespace then some (request, Text.trimStart rest) else none

/-- The directive of a comment that ends with its line: the rule is a word, and a reason follows a
dash. -/
def lineDirective? (cs : List Char) : Option Directive :=
  match request? cs with
  | none => none
  | some (request, rest) =>
    match rest.takeWhile (fun c => !Text.isWhitespace c),
        Text.trimStart (rest.dropWhile fun c => !Text.isWhitespace c) with
    | [], _ => none
    | rule, '-' :: reason => some ⟨request, rule, Text.trimChars reason⟩
    | rule, _ => some ⟨request, rule, []⟩

/-- What stands before the end of a block comment. -/
def beforeClose? : List Char → Option (List Char)
  | [] => none
  | '*' :: '/' :: _ => some []
  | c :: cs => (beforeClose? cs).map (c :: ·)

/-- The reason after the rule of a block comment. -/
def blockReason? (cs : List Char) : Option (List Char) :=
  match Text.trimStart cs with
  | '-' :: reason => (beforeClose? reason).map Text.trimChars
  | '*' :: '/' :: _ => some []
  | _ => none

/-- The shortest rule of a block comment after which a reason or the end follows, so a dash inside a
word ends the rule. -/
def blockRule? : List Char → Option (List Char × List Char)
  | [] => none
  | c :: cs =>
    if Text.isWhitespace c then none
    else
      match blockReason? cs with
      | some reason => some ([c], reason)
      | none => (blockRule? cs).map fun (rule, reason) => (c :: rule, reason)

def blockDirective? (cs : List Char) : Option Directive :=
  match request? cs with
  | none => none
  | some (request, rest) => (blockRule? rest).map fun (rule, reason) => ⟨request, rule, reason⟩

inductive CommentStyle where
  | slashes
  | hash
  | block
  deriving DecidableEq

namespace CommentStyle

/-- The styles in the order in which a line is searched for them. -/
def all : List CommentStyle := [slashes, hash, block]

/-- The directive of the comment that starts a text. -/
def directive? : CommentStyle → List Char → Option Directive
  | slashes, '/' :: '/' :: cs => lineDirective? cs
  | hash, '#' :: cs => lineDirective? cs
  | block, '/' :: '*' :: '*' :: cs => blockDirective? cs
  | block, '/' :: '*' :: cs => blockDirective? cs
  | _, _ => none

/-- The first directive of a line in comments of one style, and what stands before the comment. -/
def find? (style : CommentStyle) : List Char → Option (List Char × Directive)
  | [] => none
  | c :: cs =>
    match style.directive? (c :: cs) with
    | some directive => some ([], directive)
    | none => (find? style cs).map fun (before, directive) => (c :: before, directive)

end CommentStyle

/-- The suppression of a directive. A plain one covers the next line if nothing stands before it.
One for the file counts only where `header` says so. -/
def ofDirective? (file : String) (header : Bool) (line : Nat) (before : List Char) (d : Directive) :
    Option Suppression :=
  let suppression (line : Nat) (reach : Reach) : Suppression :=
    ⟨String.ofList d.rule, String.ofList d.reason, file, line, reach⟩
  match d.request with
  | .ignoreFile => if header then some (suppression 0 .file) else none
  | .ignoreNextLine => some (suppression line .nextLine)
  | .ignore =>
    some (suppression line (if before.all Text.isWhitespace then .nextLine else .line))

/-- The suppression of a line: the first style that gives one decides. -/
def ofLine? (file : String) (header : Bool) (line : Nat) (text : List Char) : Option Suppression :=
  CommentStyle.all.findSome? fun style =>
    (style.find? text).bind fun (before, directive) =>
      ofDirective? file header line before directive

/-- The first lines of a file, in which a directive for the file counts even after code. -/
def headerLines : Nat := 10

/-- Blank lines, the opening tag and comments make up the header of a file. -/
def isHeaderLine (line : List Char) : Bool :=
  let line := Text.trimChars line
  line.isEmpty ||
    ["<?php", "//", "#", "/*", "*"].any fun start => Text.startsWith start.toList line

/-- The suppressions of lines from a line number on; `header` tells whether all lines before belong
to the header. -/
def ofLines (file : String) (header : Bool) (line : Nat) : List (List Char) → List Suppression
  | [] => []
  | text :: rest =>
    let header := header && isHeaderLine text
    (ofLine? file (header || line ≤ headerLines) line text).toList ++
      ofLines file header (line + 1) rest

/-- The suppressions of a source, in the order of its lines. -/
def ofSource (file source : String) : List Suppression :=
  ofLines file true 1 (Text.lines source.toList)

/-- Whether a suppression silences an issue. -/
def coversIssue (s : Suppression) (issue : Issue) : Bool :=
  s.rule == "*" || Issue.ofName? s.rule == some issue

/-- Whether a suppression silences issues of a line. -/
def coversLine (s : Suppression) (line : Nat) : Bool :=
  match s.reach with
  | .file => true
  | .line => line == s.line
  | .nextLine => line == s.line + 1

def covers (s : Suppression) (d : Diagnostic) : Bool :=
  d.file == s.file && s.coversIssue d.issue && s.coversLine d.line

end Suppression

end Availability
