import CastLint.Report.Excerpt

/-! Reports with one line for a finding. -/

namespace CastLint
namespace Report

open Lint

variable (coloured : Coloured)

def briefFinding (d : Diagnostic) : String :=
  d.file ++ ":" ++ toString d.range.start.line ++ ":" ++ toString d.range.start.column ++ ": " ++
    severityText coloured d.severity ++ " [" ++ paint coloured .dimmed d.ruleId ++ "]: " ++
    d.message ++ "\n" ++
    ((d.suggestion.map fun s =>
      "  " ++ paint coloured (.plain .green) "suggestion:" ++ " " ++ s ++ "\n").getD "")

def briefSummary (findings : List Diagnostic) : String :=
  "\nFound " ++ toString (countSeverity .error findings) ++ " error(s) and " ++
    toString (countSeverity .warning findings) ++ " warning(s)\n"

def brief (findings : List Diagnostic) : String :=
  String.join (findings.map (briefFinding coloured)) ++
    if findings.isEmpty then "" else briefSummary findings

end Report
end CastLint
