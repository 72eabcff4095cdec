import CastLint.Lint.Rule

/-! A collection of rules, and which of them a configuration leaves on. -/

namespace CastLint
namespace Lint

/-- What a configuration says about rules. A rule is meant by its id or by its name. -/
structure RuleSettings where
  disabled : List String := []
  severity : List (String × Severity) := []
  /-- The rules for which options are given. -/
  options : List String := []
deriving DecidableEq, Repr, Inhabited

structure Registry where
  rules : List Rule := []
  disabled : List String := []
  severity : List (String × Severity) := []
deriving Inhabited

inductive SettingsWarning where
  | unknownDisabled (ref : String)
  | unknownSeverity (ref : String)
  | unknownOptions (ref : String)
  | noOptions (name ref : String)
deriving DecidableEq, Repr

def SettingsWarning.message : SettingsWarning → String
  | unknownDisabled ref => "Unknown rule in [rules].disabled: '" ++ ref ++ "'"
  | unknownSeverity ref => "Unknown rule in [rules.severity]: '" ++ ref ++ "'"
  | unknownOptions ref => "Unknown rule in [rules.options]: '" ++ ref ++ "'"
  | noOptions name ref =>
    "Rule '" ++ name ++ "' does not accept options; ignoring [rules.options." ++ ref ++ "]"

namespace Registry

variable (r : Registry)

def register (rule : Rule) : Registry := { r with rules := r.rules ++ [rule] }

def size : Nat := r.rules.length

def getById? (id : String) : Option Rule := r.rules.find? (·.info.id = id)

def getByName? (name : String) : Option Rule := r.rules.find? (·.info.name = name)

/-- The rule with an id, or else with a name. -/
def find? (ref : String) : Option Rule := r.getById? ref <|> r.getByName? ref

def isKnown (ref : String) : Bool := (r.find? ref).isSome

def disabledWarning? (ref : String) : Option SettingsWarning :=
  if r.isKnown ref then none else some (.unknownDisabled ref)

def severityWarning? (ref : String) : Option SettingsWarning :=
  if r.isKnown ref then none else some (.unknownSeverity ref)

def optionsWarning? (ref : String) : Option SettingsWarning :=
  match r.find? ref with
  | some rule => if rule.info.acceptsOptions then none else some (.noOptions rule.info.name ref)
  | none => some (.unknownOptions ref)

def warnings (settings : RuleSettings) : List SettingsWarning :=
  settings.disabled.filterMap r.disabledWarning? ++
    (settings.severity.filterMap fun (ref, _) => r.severityWarning? ref) ++
    settings.options.filterMap r.optionsWarning?

/-- Takes a configuration over in place of the one before. -/
def configure (settings : RuleSettings) : Registry :=
  { r with disabled := settings.disabled, severity := settings.severity }

def runs (rule : Rule) : Bool :=
  !(r.disabled.contains rule.info.id || r.disabled.contains rule.info.name)

def isEnabled (ref : String) : Bool := (r.find? ref).any r.runs

/-- The severity that a configuration gives to a rule, by its id or else by its name. -/
def severityOf? (rule : Rule) : Option Severity :=
  r.severity.lookup rule.info.id <|> r.severity.lookup rule.info.name

def runRule (file : Source.File) (rule : Rule) : List Diagnostic :=
  match r.severityOf? rule with
  | some severity => (rule.check file).map ({ · with severity := severity })
  | none => rule.check file

def runAll (file : Source.File) : List Diagnostic :=
  (r.rules.filter r.runs).flatMap (r.runRule file)

end Registry

end Lint
end CastLint
