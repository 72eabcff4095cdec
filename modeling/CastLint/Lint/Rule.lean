import CastLint.Lint.Diagnostic
import CastLint.Source.File

/-! Rules and what is known about them. -/

namespace CastLint
namespace Lint

inductive Category where
  /-- Code that is likely wrong. -/
  | problem
  /-- Code that works but has a preferred alternative. -/
  | suggestion
  /-- Formatting only. -/
  | layout
deriving DecidableEq, Repr, Inhabited

namespace Category

def name : Category → String
  | problem => "problem"
  | suggestion => "suggestion"
  | layout => "layout"

def ofName? : String → Option Category
  | "problem" => some problem
  | "suggestion" => some suggestion
  | "layout" => some layout
  | _ => none

end Category

structure RuleInfo where
  id : String
  name : String
  description : String
  category : Category
  severity : Severity
  fixable : Bool := false
  acceptsOptions : Bool := false
  /-- Message templates by their ids. -/
  messages : List (String × String) := []
  docsUrl : Option String := none
  examples : Option String := none
deriving DecidableEq, Repr, Inhabited

def RuleInfo.message? (info : RuleInfo) (id : String) : Option String :=
  (info.messages.find? (·.1 = id)).map (·.2)

structure Rule where
  info : RuleInfo
  check : Source.File → List Diagnostic
deriving Inhabited

end Lint
end CastLint
