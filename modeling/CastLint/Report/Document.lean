import CastLint.Report.Json
import CastLint.Report.Summary

/-! Reports for programs: one JSON document, or one JSON record on a line. -/

namespace CastLint
namespace Report

open Lint Json

def formVersion : String := "1.0"

def linterVersion : String := "0.1.0"

structure Subject where
  registry : Registry
  workingDirectory : String
  path : String
  totalFiles : Nat
deriving Inhabited

def locationJson (l : Text.Location) : Json :=
  object [("line", number l.line), ("column", number l.column)]

def fixJson (f : Fix) : Json :=
  object [("title", string f.title), ("kind", string "replace"),
    ("start", locationJson f.range.start), ("end", locationJson f.range.stop),
    ("new_text", string f.newText)]

def fixesJson? : List Fix → Option Json
  | [] => none
  | fixes => some (array (fixes.map fixJson))

/-- The fields of a finding. What is not known has no field. -/
def findingFields (registry : Registry) (d : Diagnostic) : List (String × Json) :=
  let rule := registry.getById? d.ruleId
  [("rule_id", string d.ruleId)] ++
    optional "rule_name" (rule.map fun r => string r.info.name) ++
    optional "category" (rule.map fun r => string r.info.category.name) ++
    optional "message_id" (d.messageId.map string) ++
    [("severity", string d.severity.name), ("message", string d.message),
      ("location", object [("file", string d.file), ("start", locationJson d.range.start),
        ("end", locationJson d.range.stop)])] ++
    optional "suggestion" (d.suggestion.map string) ++
    optional "fixes" (fixesJson? d.fixes)

def SeverityCounts.json (c : SeverityCounts) : Json :=
  object [("error", number c.error), ("warning", number c.warning), ("info", number c.info),
    ("hint", number c.hint)]

def CategoryCounts.json (c : CategoryCounts) : Json :=
  object [("problem", number c.problem), ("suggestion", number c.suggestion),
    ("layout", number c.layout)]

def Summary.fields (s : Summary) : List (String × Json) :=
  [("total_files", number s.totalFiles), ("files_with_issues", number s.filesWithIssues),
    ("total_diagnostics", number s.totalDiagnostics), ("fixable", number s.fixable),
    ("by_severity", s.bySeverity.json), ("by_category", s.byCategory.json)]

namespace Subject

variable (subject : Subject) (findings : List Diagnostic)

def metadataFields : List (String × Json) :=
  [("mocklint_version", string linterVersion),
    ("working_directory", string subject.workingDirectory), ("analyzed_path", string subject.path)]

def summary : Summary := Summary.ofFindings subject.registry subject.totalFiles findings

def document : Json :=
  object [("version", string formVersion), ("metadata", object subject.metadataFields),
    ("summary", object (subject.summary findings).fields),
    ("diagnostics", array (findings.map fun d => object (findingFields subject.registry d)))]

/-- A record says what it is in its first field. -/
def record (kind : String) (fields : List (String × Json)) : Json :=
  object (("type", string kind) :: fields)

/-- The records about all findings: what was analyzed, each finding, the summary. -/
def records : List Json :=
  [record "metadata" subject.metadataFields] ++
    (findings.map fun d => record "diagnostic" (findingFields subject.registry d)) ++
    [record "summary" (subject.summary findings).fields]

def documentText : String := (subject.document findings).pretty

def recordsText : String := String.join ((subject.records findings).map fun j => j.line ++ "\n")

end Subject

end Report
end CastLint
