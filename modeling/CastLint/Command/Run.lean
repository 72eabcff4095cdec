import CastLint.Command.Explain

/-! A whole run of the program. -/

namespace CastLint
namespace Command

def logVariable : String := "RUST_LOG"

/-- What is logged: what the variable says, and everything else from a level on. -/
def logSettings (env : Environment) (invocation : Invocation) : Log.Settings where
  directives := Log.directives ((env.bindings.lookup logVariable).getD "") ++
    [{ target := none, rank := invocation.logLevel.rank }]
  json := invocation.logJson
  ansi := (env.bindings.lookup "NO_COLOR").all (· = "")
  time := env.time

def logComplaints (env : Environment) : String :=
  String.join ((Log.complaints ((env.bindings.lookup logVariable).getD "")).map (· ++ "\n"))

def Stop.outcome : Stop → Outcome
  | help topic => { stdout := topic.text }
  | version => { stdout := program ++ " " ++ Report.linterVersion ++ "\n" }
  | noArguments => { code := 2, stderr := HelpTopic.summary.text }
  | mistake e => { code := 2, stderr := e.message }

def run (env : Environment) (tree : Files.Entry) (args : List String) : Outcome :=
  match parseArguments args with
  | .error stop => stop.outcome
  | .ok invocation =>
    let log := logSettings env invocation
    let outcome := match invocation.action with
      | .check options => check env log tree options
      | .explain rule => explain env log tree rule
    { outcome with stderr := logComplaints env ++ outcome.stderr }

end Command
end CastLint
