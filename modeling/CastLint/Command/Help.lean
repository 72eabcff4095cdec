import CastLint.Command.Grammar

/-! The help texts. -/

namespace CastLint
namespace Command

inductive HelpTopic where
  | program
  /-- The program in short. -/
  | summary
  | check
  | explain
  | help
deriving DecidableEq, Repr

def lines (ls : List String) : String := String.join (ls.map (· ++ "\n"))

def checkTitle : String := "Report \x60as jest.Mock\x60 casts and optionally rewrite them"

def explainTitle : String := "Show detailed explanation for a specific rule"

def helpTitle : String := "Print this message or the help of the given subcommand(s)"

def commandLines : List String :=
  ["Commands:", "  check    " ++ checkTitle, "  explain  " ++ explainTitle, "  help     " ++ helpTitle]

def logLevelTitle : String := "Diagnostic log level; RUST_LOG directives are applied on top"

def logJsonTitle : String := "Emit logs as JSON lines on stderr"

def possibleValues (values : List String) : String :=
  "[possible values: " ++ ", ".intercalate values ++ "]"

def globalLines : List String :=
  ["      --log-level <LOG_LEVEL>  " ++ logLevelTitle ++ " [default: warn] " ++
      possibleValues logLevels,
    "      --log-json               " ++ logJsonTitle]

def HelpTopic.text : HelpTopic → String
  | program => lines <|
    ["mocklint reports \x60expr as jest.Mock\x60 and \x60expr as jest.MockedFunction<...>\x60 casts",
      "in TypeScript sources and can rewrite them to \x60jest.mocked(expr)\x60.", "",
      "Configure rules with a mocklint.toml file next to your sources.", "",
      "Usage: " ++ topGrammar.usage, ""] ++ commandLines ++
    ["", "Options:", "      --log-level <LOG_LEVEL>", "          " ++ logLevelTitle, "          ",
      "          [default: warn]", "          " ++ possibleValues logLevels, "",
      "      --log-json", "          " ++ logJsonTitle, "",
      "  -h, --help", "          Print help (see a summary with '-h')", "",
      "  -V, --version", "          Print version"]
  | summary => lines <|
    ["Prefer jest.mocked() over casts to jest.Mock", "", "Usage: " ++ topGrammar.usage, ""] ++
    commandLines ++ ["", "Options:"] ++ globalLines ++
    ["  -h, --help                   Print help (see more with '--help')",
      "  -V, --version                Print version"]
  | check => lines <|
    [checkTitle, "", "Usage: " ++ checkGrammar.usage, "", "Arguments:",
      "  <PATH>  Path to file or directory to analyze", "", "Options:",
      "      --fix                    Rewrite fixable casts in place",
      "  -f, --format <FORMAT>        Output format for diagnostics [default: pretty] " ++
        possibleValues formats,
      "      --fail-on-warnings       Fail on warnings (exit code 1)"] ++ globalLines ++
    ["      --no-color               Disable colored output",
      "  -h, --help                   Print help"]
  | explain => lines <|
    [explainTitle, "", "Usage: " ++ explainGrammar.usage, "", "Arguments:",
      "  <RULE>  Rule id or name to explain (e.g. \"J001\", \"prefer-mocked\")", "", "Options:"] ++
    globalLines ++ ["  -h, --help                   Print help"]
  | help => lines
    [helpTitle, "", "Usage: mocklint help [COMMAND]...", "", "Arguments:",
      "  [COMMAND]...  Print help for the subcommand(s)"]

end Command
end CastLint
