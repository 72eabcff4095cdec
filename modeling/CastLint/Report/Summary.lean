import CastLint.Lint.Registry

/-! Numbers about findings. -/

namespace CastLint
namespace Report

open Lint

def countSeverity (severity : Severity) (findings : List Diagnostic) : Nat :=
  findings.countP (·.severity = severity)

def countFixable (findings : List Diagnostic) : Nat := findings.countP (·.isFixable)

structure SeverityCounts where
  error : Nat := 0
  warning : Nat := 0
  info : Nat := 0
  hint : Nat := 0
deriving DecidableEq, Repr, Inhabited

def SeverityCounts.add (c : SeverityCounts) : Severity → SeverityCounts
  | .error => { c with error := c.error + 1 }
  | .warning => { c with warning := c.warning + 1 }
  | .info => { c with info := c.info + 1 }
  | .hint => { c with hint := c.hint + 1 }

structure CategoryCounts where
  problem : Nat := 0
  suggestion : Nat := 0
  layout : Nat := 0
deriving DecidableEq, Repr, Inhabited

def CategoryCounts.add (c : CategoryCounts) : Category → CategoryCounts
  | .problem => { c with problem := c.problem + 1 }
  | .suggestion => { c with suggestion := c.suggestion + 1 }
  | .layout => { c with layout := c.layout + 1 }

structure Summary where
  totalFiles : Nat
  filesWithIssues : Nat
  totalDiagnostics : Nat
  fixable : Nat
  bySeverity : SeverityCounts
  /-- Only findings of known rules have a category. -/
  byCategory : CategoryCounts
deriving DecidableEq, Repr, Inhabited

def categoryOf? (registry : Registry) (ruleId : String) : Option Category :=
  (registry.getById? ruleId).map (·.info.category)

def Summary.ofFindings (registry : Registry) (totalFiles : Nat) (findings : List Diagnostic) :
    Summary where
  totalFiles := totalFiles
  filesWithIssues := (findings.map (·.file)).eraseDups.length
  totalDiagnostics := findings.length
  fixable := countFixable findings
  bySeverity := findings.foldl (fun c d => c.add d.severity) {}
  byCategory := (findings.filterMap fun d => categoryOf? registry d.ruleId).foldl .add {}

end Report
end CastLint
