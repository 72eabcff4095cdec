import CastLint.Report.Paint
import CastLint.Report.Summary
import CastLint.Text.Lines

/-! Reports for people: findings with the line of the source they are about. -/

namespace CastLint
namespace Report

open Lint

def severityColour : Severity → Colour
  | .error => .red
  | .warning => .yellow
  | .info => .blue
  | .hint => .cyan

variable (coloured : Coloured)

def severityText (s : Severity) : String := paint coloured (.strong (severityColour s)) s.name

def blue (text : String) : String := paint coloured (.plain .blue) text

def run (n : Nat) (c : Char) : String := String.ofList (List.replicate n c)

abbrev Sources := List (String × String)

/-- A line of a file. Lines count from one. -/
def sourceLine? (sources : Sources) (file : String) : (line : Nat) → Option (List Char)
  | 0 => none
  | n + 1 => (sources.lookup file).bind fun text => (Text.lines text.toList)[n]?

/-- The length of the carets under a line: up to the end of a range on the line, and else up to
the end of the line. -/
def caretLength (range : Text.Range) (line : List Char) : Nat :=
  let length :=
    if range.stop.line = range.start.line && range.start.column < range.stop.column then
      range.stop.column - range.start.column
    else line.length - (range.start.column - 1)
  max length 1

def excerpt (gutter : String) (range : Text.Range) (line : List Char) : List String :=
  let bar := blue coloured "|"
  [gutter ++ " " ++ bar,
    blue coloured (toString range.start.line) ++ " " ++ bar ++ " " ++ String.ofList line,
    gutter ++ " " ++ bar ++ " " ++ run (range.start.column - 1) ' ' ++
      paint coloured (.plain .red) (run (caretLength range line) '^'),
    gutter ++ " " ++ bar]

def findingLines (sources : Sources) (d : Diagnostic) : List String :=
  let start := d.range.start
  let gutter := run (toString start.line).length ' '
  [severityText coloured d.severity ++ "[" ++ paint coloured .dimmed d.ruleId ++ "]: " ++ d.message,
    "  " ++ blue coloured "-->" ++ " " ++ d.file ++ ":" ++ toString start.line ++ ":" ++
      toString start.column] ++
    ((sourceLine? sources d.file start.line).map (excerpt coloured gutter d.range)).getD [] ++
    (d.suggestion.map fun s =>
      gutter ++ " " ++ blue coloured "=" ++ " " ++ paint coloured (.plain .green) "suggestion:" ++
        " " ++ s).toList

def plural (n : Nat) (noun : String) : String :=
  toString n ++ " " ++ noun ++ if n = 1 then "" else "s"

def excerptSummary (findings : List Diagnostic) : String :=
  let total := findings.length
  let fixable := countFixable findings
  "\nFound " ++ paint coloured .bold (toString total) ++
    (if total = 1 then " problem (" else " problems (") ++
    paint coloured (.plain .red) (plural (countSeverity .error findings) "error") ++ ", " ++
    paint coloured (.plain .yellow) (plural (countSeverity .warning findings) "warning") ++ ")\n" ++
    if fixable = 0 then ""
    else paint coloured (.plain .green) (toString fixable) ++
      " fixable with \x60mocklint check --fix\x60\n"

def excerpts (sources : Sources) (findings : List Diagnostic) : String :=
  String.join (findings.map fun d => "\n".intercalate (findingLines coloured sources d) ++ "\n") ++
    if findings.isEmpty then "" else excerptSummary coloured findings

end Report
end CastLint
