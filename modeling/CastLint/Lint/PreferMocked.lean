import CastLint.Lint.Rule
import CastLint.Lint.Template
import CastLint.Syntax.Cast

/-! The rule against casts to the types of mock functions. Such a cast throws away the signature of
what it casts, and a call of `jest.mocked` keeps it. -/

namespace CastLint
namespace Lint
namespace PreferMocked

open Syntax

def mockSpace : String := "jest"

def mockTypes : List String := ["Mock", "MockedFunction"]

def helper : String := "jest.mocked"

def messageId : String := "useJestMocked"

def info : RuleInfo where
  id := "J001"
  name := "prefer-mocked"
  description := "Prefer jest.mocked() over (fn as jest.Mock)"
  category := .suggestion
  severity := .warning
  fixable := true
  messages := [(messageId, "Prefer jest.mocked(\x7b\x7b replacement \x7d\x7d)")]
  examples := some <| "// Bad\n(foo as jest.Mock).mockReturnValue(1);\n" ++
    "const m = useFocused as jest.MockedFunction<typeof useFocused>;\n\n" ++
    "// Good\njest.mocked(foo).mockReturnValue(1);\nconst m = jest.mocked(useFocused);"

def isMockCast (cast : Cast) : Bool :=
  match cast.type.qualifiedName? with
  | some (space, member) => space == mockSpace && mockTypes.contains member
  | none => false

/-- The text of an expression without the casts and parentheses around it. -/
def bareText? (file : Source.File) (node : Node) : Option String :=
  (file.textOf? node.bare.span).filter fun text => text ≠ ""

def finding? (file : Source.File) (cast : Cast) : Option Diagnostic := do
  unless isMockCast cast do none
  let inner ← bareText? file cast.operand
  let range ← file.rangeOf? cast.span
  let replacement := helper ++ "(" ++ inner ++ ")"
  let template := (info.message? messageId).getD ""
  return {
    ruleId := info.id
    messageId := some messageId
    severity := info.severity
    message := Template.render template [("replacement", "")]
    file := file.name
    range := range
    suggestion := some ("Replace with " ++ replacement)
    fixes := [⟨"Replace with " ++ helper ++ "()", replacement, range⟩] }

def check (file : Source.File) : List Diagnostic :=
  if file.language.isTypescript then
    match file.module.items with
    | some items => (casts items).filterMap (finding? file)
    | none => []
  else []

def rule : Rule := ⟨info, check⟩

end PreferMocked
end Lint
end CastLint
