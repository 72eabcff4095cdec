import CastLint.Lint.PreferMocked
import CastLint.Lint.Registry

/-! The analysis of a source file: what is wrong with its text, and what the rules find. -/

namespace CastLint
namespace Lint

def parseRuleId : String := "PARSE"

def allRules : Registry := { rules := [PreferMocked.rule] }

structure Engine where
  registry : Registry := allRules
  /-- What the configuration says without effect. -/
  warnings : List SettingsWarning := []
deriving Inhabited

namespace Engine

def ofSettings (settings : RuleSettings) : Engine where
  registry := allRules.configure settings
  warnings := allRules.warnings settings

variable (engine : Engine)

/-- The names under which a directive can mean the rule of a finding. -/
def namesOf (d : Diagnostic) : List String :=
  d.ruleId :: ((engine.registry.getById? d.ruleId).map (·.info.name)).toList

def isSuppressed (file : Source.File) (d : Diagnostic) : Bool :=
  file.directives.isDisabled d.range.start.line (engine.namesOf d)

def parseFindings (file : Source.File) : List Diagnostic :=
  file.module.problems.map fun p =>
    Diagnostic.point parseRuleId .error p.message file.name p.location

/-- All findings of a file that no directive switches off. -/
def analyze (file : Source.File) : List Diagnostic :=
  (parseFindings file ++ engine.registry.runAll file).filter (!engine.isSuppressed file ·)

def analyzeText (name text : String) : List Diagnostic :=
  engine.analyze (Source.File.ofText name text)

end Engine

end Lint
end CastLint
