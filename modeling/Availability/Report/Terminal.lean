import Availability.Report
import Availability.Text.Quoted

/-!
# Reports for a terminal

Text may be painted. A reset inside a painted text takes up the paint again.
-/
namespace Availability.Terminal

/-- How text is painted. -/
inductive Paint where
  | dimmed
  | bold
  | red
  | green
  | yellow
  | blue
  | boldCyan
  | boldRed
  deriving DecidableEq

def Paint.code : Paint → String
  | dimmed => "2"
  | bold => "1"
  | red => "31"
  | green => "32"
  | yellow => "33"
  | blue => "34"
  | boldCyan => "1;36"
  | boldRed => "1;31"

def Paint.start (p : Paint) : String := "\x1b[" ++ p.code ++ "m"

def reset : String := "\x1b[0m"

/-- Puts a text after every reset. -/
private def afterResets (more : List Char) : List Char → List Char
  | [] => []
  | '\x1b' :: '[' :: '0' :: 'm' :: cs => reset.toList ++ more ++ afterResets more cs
  | c :: cs => c :: afterResets more cs

/-- A text as it is painted where there is colour. -/
def painted (colour : Bool) (p : Paint) (text : String) : String :=
  if colour then
    p.start ++ String.ofList (afterResets p.start.toList text.toList) ++ reset
  else text

/-- A text filled with blanks to a width. -/
def padTo (width : Nat) (text : String) : String :=
  text ++ String.ofList (List.replicate (width - text.length) ' ')

/-- The width of the column of issues. -/
def issueWidth : Nat := 24

private def decimal : Nat → String := Version.decimal

private def count (n : Nat) (one several : String) : String :=
  decimal n ++ " " ++ (if n = 1 then one else several)

section

variable (colour : Bool)

private def titleLine (p : Paint) (title : String) (n : Nat) : String :=
  "  " ++ painted colour p title ++ " (" ++ decimal n ++ "):\n"

private def heading (h : Report.Heading) : String :=
  "\n  " ++ painted colour .boldCyan programName ++ " v" ++ programVersion ++ "\n\n  " ++
    painted colour .dimmed "Scanning: " ++ h.path ++ "\n  " ++
    painted colour .dimmed "Requires: " ++ h.platform ++ " " ++ h.minimum.toString ++ "\n\n"

private def summary (a : Audit) : String :=
  let calls := count a.diagnostics.length "incompatible call" "incompatible calls"
  let passed := a.diagnostics.isEmpty
  "  " ++ (if passed then painted colour .green "✓ PASS" else painted colour .red "✗ FAIL") ++
    "  " ++
    count a.scanned "file" "files" ++ " scanned, " ++
    painted colour (if passed then .green else .boldRed) calls ++
    (if a.suppressed.isEmpty then ""
      else "  " ++ painted colour .dimmed
        ("(" ++ decimal a.suppressed.length ++ " suppressed)")) ++ "\n\n"

/-- The column of issues, the file and the line. -/
private def place (d : Diagnostic) (line : String) : String :=
  painted colour .dimmed (padTo issueWidth d.issue.name) ++ painted colour .blue d.file ++
    (if line.isEmpty then "" else painted colour .dimmed line) ++ "\n"

private def lineOf (d : Diagnostic) : String :=
  if d.line = 0 then "" else ":" ++ decimal d.line

private def indent : String := "            "

private def diagnosticLines (d : Diagnostic) : String :=
  "    " ++ painted colour .red "ERROR" ++ "    " ++ place colour d (lineOf d) ++
    indent ++ d.message ++ "\n\n"

private def diagnostics (ds : List Diagnostic) : String :=
  if ds.isEmpty then ""
  else titleLine colour .bold "Diagnostics" ds.length ++ "\n" ++
    String.join (ds.map (diagnosticLines colour)) ++ "\n"

private def suppressedLines (s : Suppressed) : String :=
  let d := s.diagnostic
  let reason := s.suppression.reason
  "    " ++ place colour d (if s.suppression.reach = .file then ":* (file)" else lineOf d) ++
    indent ++ painted colour .dimmed d.message ++ "\n" ++
    (if reason.isEmpty then ""
      else indent ++ painted colour .dimmed ("reason: " ++ Text.quote reason) ++ "\n")

private def suppressed (details : Bool) (ss : List Suppressed) : String :=
  if ss.isEmpty then ""
  else titleLine colour .dimmed "Suppressed" ss.length ++
    (if details then "\n" ++ String.join (ss.map (suppressedLines colour))
      else "    " ++ painted colour .dimmed "(use --show-suppressed to see details)" ++ "\n") ++
      "\n"

private def skipped (files : List String) : String :=
  if files.isEmpty then ""
  else titleLine colour .yellow "Skipped" files.length ++
    String.join (files.map fun f => "    " ++ painted colour .dimmed f ++ "\n") ++ "\n"

end

/-- The report; `details` tells whether suppressed diagnostics are listed. -/
def report (colour details : Bool) (h : Report.Heading) (a : Audit) : String :=
  heading colour h ++ summary colour a ++ diagnostics colour a.diagnostics ++
    suppressed colour details a.suppressed ++ skipped colour a.skipped

end Availability.Terminal
