import CastLint.Syntax.Parser.Basic

/-! The languages a source file can be written in, told by the extension of its name. -/

namespace CastLint
namespace Source

inductive Language where
  | javaScript | typeScript | jsx | tsx
deriving DecidableEq, Repr, Inhabited

namespace Language

def name : Language → String
  | javaScript => "JavaScript"
  | typeScript => "TypeScript"
  | jsx => "Jsx"
  | tsx => "Tsx"

def isTypescript : Language → Bool
  | typeScript | tsx => true
  | javaScript | jsx => false

def dialect : Language → Syntax.Dialect
  | javaScript => {}
  | typeScript => { typescript := true, decorators := true }
  | jsx => { markup := true }
  | tsx => { typescript := true, markup := true, decorators := true }

/-- What follows the last dot of a name, or the whole name if it has none. -/
def extension (filename : String) : String :=
  String.ofList (filename.toList.reverse.takeWhile (· ≠ '.')).reverse

/-- The language that the extension of a name stands for, in whichever case it is written. -/
def ofFilename (filename : String) : Language :=
  match (extension filename).toLower with
  | "ts" | "mts" | "cts" => typeScript
  | "tsx" => tsx
  | "jsx" => jsx
  | _ => javaScript

end Language

end Source
end CastLint
