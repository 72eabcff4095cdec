import CastLint.Command.Check

/-! The command that tells what is known about a rule. -/

namespace CastLint
namespace Command

open Lint

variable (coloured : Report.Coloured)

def entryLine (name value : String) : String :=
  "  " ++ Report.paint coloured (.plain .cyan) name ++ value ++ "\n"

def explanation (info : RuleInfo) (enabled : Bool) : String :=
  "\n" ++ Report.paint coloured .bold ("Rule " ++ info.id) ++ "\n\n" ++
    entryLine coloured "Name" (": " ++ info.name) ++
    entryLine coloured "Description" (": " ++ info.description) ++
    entryLine coloured "Category" (": " ++ info.category.name) ++
    entryLine coloured "Severity" (": " ++
      Report.paint coloured (.plain (Report.severityColour info.severity)) info.severity.name) ++
    entryLine coloured "Fixable" (": " ++ if info.fixable then "yes" else "no") ++
    String.join (info.messages.map fun (id, template) =>
      entryLine coloured "Message" (" " ++ id ++ ": " ++ template)) ++
    String.join (info.docsUrl.toList.map fun url =>
      entryLine coloured "Documentation" (": " ++ url)) ++
    String.join (info.examples.toList.map fun examples =>
      "\n" ++ entryLine coloured "Examples" ":" ++
        String.join ((Text.lines examples.toList).map fun l =>
          "    " ++ String.ofList l ++ "\n")) ++
    "\n" ++ entryLine coloured "Status" (": " ++
      (if enabled then Report.paint coloured (.plain .green) "enabled"
        else Report.paint coloured (.plain .red) "disabled")) ++ "\n"

def unknownRule (ref : String) (registry : Registry) : String :=
  Report.paint coloured (.strong .red) "error:" ++ " unknown rule '" ++ ref ++
    "'\n\nAvailable rules:\n" ++
    String.join (registry.rules.map fun r => "  " ++ r.info.id ++ " (" ++ r.info.name ++ ")\n")

/-- Tells what is known about a rule, and whether the configuration of the working directory
leaves it on. -/
def explain (env : Environment) (log : Log.Settings) (tree : Files.Entry) (ref : String) :
    Outcome :=
  let coloured := env.coloured
  match Config.loadNearest env.refusals tree env.directory (Files.Place.text env.directory) with
  | .error e => (loadFailure e).outcome "" []
  | .ok loaded =>
    let engine := Engine.ofSettings loaded.settings.ruleSettings
    let said := String.join ((settingsEvents engine).map log.line)
    match engine.registry.find? ref with
    | some rule =>
      { stdout := explanation coloured rule.info (engine.registry.isEnabled rule.info.id)
        stderr := said }
    | none => { code := 1, stderr := said ++ unknownRule coloured ref engine.registry }

end Command
end CastLint
