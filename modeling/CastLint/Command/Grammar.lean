/-! The commands, their options and how to write them. -/

namespace CastLint
namespace Command

inductive OptionKind where
  | flag
  /-- Takes one of some values. -/
  | choice (placeholder : String) (values : List String)
  | help
  | version
deriving DecidableEq, Repr

structure OptionSpec where
  /-- Follows two hyphens. -/
  long : String
  /-- Follows one hyphen. -/
  short : Option Char := none
  kind : OptionKind := .flag
deriving DecidableEq, Repr

def OptionSpec.text (o : OptionSpec) : String :=
  match o.kind with
  | .choice placeholder _ => "--" ++ o.long ++ " <" ++ placeholder ++ ">"
  | _ => "--" ++ o.long

inductive Operand where
  /-- The path must not be empty. -/
  | path
  | rule
  | subcommand
deriving DecidableEq, Repr

def Operand.text : Operand → String
  | path => "<PATH>"
  | rule => "<RULE>"
  | subcommand => "<COMMAND>"

structure Grammar where
  name : String
  options : List OptionSpec
  operand : Operand
deriving DecidableEq, Repr

def logLevels : List String := ["trace", "debug", "info", "warn", "error"]

def formats : List String := ["pretty", "text", "json", "ndjson"]

def logLevelOption : OptionSpec := { long := "log-level", kind := .choice "LOG_LEVEL" logLevels }

def logJsonOption : OptionSpec := { long := "log-json" }

/-- Options that stand in front of or behind the name of a subcommand. -/
def globalOptions : List OptionSpec := [logLevelOption, logJsonOption]

def helpOption : OptionSpec := { long := "help", short := some 'h', kind := .help }

def versionOption : OptionSpec := { long := "version", short := some 'V', kind := .version }

def fixOption : OptionSpec := { long := "fix" }

def formatOption : OptionSpec :=
  { long := "format", short := some 'f', kind := .choice "FORMAT" formats }

def failOnWarningsOption : OptionSpec := { long := "fail-on-warnings" }

def noColorOption : OptionSpec := { long := "no-color" }

def program : String := "mocklint"

def topGrammar : Grammar where
  name := program
  options := globalOptions ++ [helpOption, versionOption]
  operand := .subcommand

def checkGrammar : Grammar where
  name := program ++ " check"
  options := [fixOption, formatOption, failOnWarningsOption, noColorOption] ++ globalOptions ++
    [helpOption]
  operand := .path

def explainGrammar : Grammar where
  name := program ++ " explain"
  options := globalOptions ++ [helpOption]
  operand := .rule

inductive Subcommand where
  | check | explain | help
deriving DecidableEq, Repr

namespace Subcommand

def all : List Subcommand := [check, explain, help]

def name : Subcommand → String
  | check => "check"
  | explain => "explain"
  | help => "help"

def ofName? (name : String) : Option Subcommand := all.find? (·.name = name)

def names : List String := all.map name

end Subcommand

namespace Grammar

variable (g : Grammar)

def findLong? (long : String) : Option OptionSpec := g.options.find? (·.long = long)

def findShort? (c : Char) : Option OptionSpec := g.options.find? (·.short = some c)

def longs : List String := g.options.map (·.long)

def hasSubcommands : Bool := g.operand = .subcommand

def usage : String := g.name ++ " [OPTIONS] " ++ g.operand.text

def usageWith (options : List OptionSpec) : String :=
  g.name ++ String.join (options.eraseDups.map fun o => " " ++ o.text) ++ " " ++ g.operand.text

end Grammar

end Command
end CastLint
