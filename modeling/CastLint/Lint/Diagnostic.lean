import CastLint.Text.Location

/-! What a rule reports, and the changes it proposes. -/

namespace CastLint
namespace Lint

inductive Severity where
  | error | warning | info | hint
deriving DecidableEq, Repr, Inhabited

namespace Severity

def name : Severity → String
  | error => "error"
  | warning => "warning"
  | info => "info"
  | hint => "hint"

def ofName? : String → Option Severity
  | "error" => some error
  | "warning" => some warning
  | "info" => some info
  | "hint" => some hint
  | _ => none

end Severity

structure Fix where
  title : String
  newText : String
  range : Text.Range
deriving DecidableEq, Repr, Inhabited

structure Diagnostic where
  ruleId : String
  /-- Tells the reason apart from its wording. -/
  messageId : Option String := none
  severity : Severity
  message : String
  file : String
  range : Text.Range
  suggestion : Option String := none
  fixes : List Fix := []
deriving DecidableEq, Repr, Inhabited

namespace Diagnostic

def point (ruleId : String) (severity : Severity) (message file : String)
    (location : Text.Location) : Diagnostic :=
  { ruleId := ruleId, severity := severity, message := message, file := file,
    range := ⟨location, location⟩ }

def isFixable (d : Diagnostic) : Bool := !d.fixes.isEmpty

end Diagnostic

end Lint
end CastLint
