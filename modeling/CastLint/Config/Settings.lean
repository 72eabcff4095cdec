import CastLint.Lint.Registry
import CastLint.Text.Sorted
import CastLint.Toml.Document

/-! A configuration and how it is read from a TOML document. -/

namespace CastLint
namespace Config

structure RuleTables where
  disabled : List String := []
  severity : List (String × Lint.Severity) := []
  options : List (String × Toml.Value) := []
deriving Inhabited

structure Settings where
  /-- Patterns of the files to leave out. -/
  exclude : List String := []
  rules : RuleTables := {}
deriving Inhabited

namespace Settings

def ruleSettings (s : Settings) : Lint.RuleSettings where
  disabled := s.rules.disabled
  severity := s.rules.severity
  options := s.rules.options.map (·.1)

def isDefault (s : Settings) : Bool :=
  s.exclude.isEmpty && s.rules.disabled.isEmpty && s.rules.severity.isEmpty &&
    s.rules.options.isEmpty

end Settings

inductive Mistake where
  /-- The text is no document. -/
  | malformed (failure : Toml.Failure)
  /-- A value of the wrong type. -/
  | wrongType (found expected : String)
  | unknownSeverity (name : String)
  /-- A severity that is neither a name nor a table. -/
  | noSeverity
  | severityTableEmpty
  | severityTableLarge
  /-- A severity as a table in which the name has something as its value: entries or items, or
  tables. -/
  | severityTableFilled
  | severityTablesFilled
  | severityValue (kind : String)
deriving DecidableEq, Repr

namespace Mistake

def message : Mistake → String
  | malformed failure => failure.message
  | wrongType found expected => "invalid type: " ++ found ++ ", expected " ++ expected
  | unknownSeverity name =>
    "unknown variant " ++ Toml.backquoted name ++ ", expected one of " ++
      ", ".intercalate (["error", "warning", "info", "hint"].map Toml.backquoted)
  | noSeverity => "wanted string or table"
  | severityTableEmpty => "wanted exactly 1 element, found 0 elements"
  | severityTableLarge => "wanted exactly 1 element, more than 1 element"
  | severityTableFilled => "expected empty table"
  | severityTablesFilled => "expected empty array"
  | severityValue kind => "expected table, found " ++ kind

end Mistake

open Toml (Value)

def shown : Value → String
  | .string s => "string " ++ Text.quoted s
  | .integer n => "integer " ++ Toml.backquoted (toString n)
  | .float x => "floating point " ++ Toml.backquoted x.plainText
  | .boolean b => "boolean " ++ Toml.backquoted (toString b)
  | .datetime _ | .table _ _ => "map"
  | .array _ | .tables _ => "sequence"

/-- The key under which the text of a date stands where a table is asked for. -/
def datetimeKey : String := "$__toml_private_datetime"

def items? : Value → Option (List Value)
  | .array items => some items
  | .tables items => some (items.map (Value.table .header))
  | _ => none

def entries? : Value → Option (List (String × Value))
  | .table _ entries => some entries
  | .datetime d => some [(datetimeKey, .string d.text)]
  | _ => none

def text (v : Value) : Except Mistake String :=
  match v with
  | .string s => .ok s
  | _ => .error (.wrongType (shown v) "a string")

def texts (v : Value) : Except Mistake (List String) :=
  match items? v with
  | some items => items.mapM text
  | none => .error (.wrongType (shown v) "a sequence")

def severityNamed (name : String) : Except Mistake Lint.Severity :=
  match Lint.Severity.ofName? name with
  | some s => .ok s
  | none => .error (.unknownSeverity name)

/-- A severity is its name, or a table with the name as the only key and an empty table or array
under it. -/
def severity (v : Value) : Except Mistake Lint.Severity :=
  match v with
  | .string name => severityNamed name
  | .table _ [] => .error .severityTableEmpty
  | .table _ [(name, inner)] => do
    let s ← severityNamed name
    match inner with
    | .table _ [] | .array [] | .tables [] => .ok s
    | .table _ _ | .array _ => .error .severityTableFilled
    | .tables _ => .error .severityTablesFilled
    | v => .error (.severityValue v.kind)
  | .table _ _ => .error .severityTableLarge
  | _ => .error .noSeverity

def tableOf {α : Type} (item : Value → Except Mistake α) (v : Value) :
    Except Mistake (List (String × α)) :=
  match entries? v with
  | some entries => entries.mapM fun (k, v) => do return (k, ← item v)
  | none => .error (.wrongType (shown v) "a map")

abbrev FieldReader (α : Type) := α → Value → Except Mistake α

/-- A record is a table, in which unknown keys do not count, or an array with its first fields in
their order. -/
def record {α : Type} (name : String) (fields : List (String × FieldReader α)) (start : α)
    (v : Value) : Except Mistake α :=
  match entries? v, items? v with
  | some entries, _ =>
    entries.foldlM (fun a (k, v) => ((fields.lookup k).getD fun a _ => .ok a) a v) start
  | none, some items => (fields.zip items).foldlM (fun a ((_, f), v) => f a v) start
  | none, none => .error (.wrongType (shown v) ("struct " ++ name))

def ruleTables : Value → Except Mistake RuleTables :=
  record "RulesConfig"
    [("disabled", fun r v => do return { r with disabled := ← texts v }),
     ("severity", fun r v => do return { r with severity := ← tableOf severity v }),
     ("options", fun r v => do return { r with options := ← tableOf .ok v })] {}

def settings (entries : Toml.Entries) : Except Mistake Settings :=
  record "Config"
    [("exclude", fun s v => do return { s with exclude := ← texts v }),
     ("rules", fun s v => do return { s with rules := ← ruleTables v })] {}
    (.table .header entries)

def unknownKeys (known : List String) (entries : Toml.Entries) : List String :=
  Text.sortBy id ((entries.map (·.1)).filter fun k => !known.contains k)

def unknownOptions (entries : Toml.Entries) : List String :=
  (unknownKeys ["exclude", "rules"] entries).map (fun k => "Unknown config option: '" ++ k ++ "'") ++
    match entries.lookup "rules" with
    | some (.table _ rules) =>
      (unknownKeys ["disabled", "severity", "options"] rules).map fun k =>
        "Unknown config option in [rules]: '" ++ k ++ "'"
    | _ => []

def Settings.ofText (content : String) : Except Mistake (Settings × List String) :=
  match Toml.read content with
  | .error failure => .error (.malformed failure)
  | .ok entries =>
    match settings entries with
    | .error e => .error e
    | .ok s => .ok (s, unknownOptions entries)

end Config
end CastLint
