import CastLint.Text.Blank
import CastLint.Text.Lines

/-! Comments that switch rules off for one line: for the line they stand on, or for the next. -/

namespace CastLint
namespace Source

/-- Switches rules off on a line. No rules stand for all of them. -/
structure Directive where
  line : Nat
  rules : List String
deriving DecidableEq, Repr, Inhabited

namespace Directive

def disablesAll (d : Directive) : Bool := d.rules.isEmpty

def disablesAny (d : Directive) (refs : List String) : Bool :=
  d.disablesAll || d.rules.any refs.contains

/-- Both directives at once, for the line of the first. -/
def merge (d e : Directive) : Directive :=
  if d.disablesAll || e.disablesAll then { d with rules := [] }
  else { d with rules := d.rules ++ e.rules }

end Directive

/-- The directives of a text, at most one for a line. -/
structure Directives where
  entries : List Directive := []
deriving DecidableEq, Repr, Inhabited

namespace Directives

/-- Adds a directive to the one that its line already has, or as a new one. -/
def insert (d : Directive) : List Directive → List Directive
  | [] => [d]
  | e :: es => if e.line = d.line then e.merge d :: es else e :: insert d es

def add (ds : Directives) (d : Directive) : Directives := ⟨insert d ds.entries⟩

def size (ds : Directives) : Nat := ds.entries.length

def isEmpty (ds : Directives) : Bool := ds.entries.isEmpty

def isDisabled (ds : Directives) (line : Nat) (refs : List String) : Bool :=
  match ds.entries.find? (·.line = line) with
  | some d => d.disablesAny refs
  | none => false

end Directives

/-- What follows the first two slashes of a line. -/
def comment? : List Char → Option (List Char)
  | '/' :: '/' :: cs => some cs
  | _ :: cs => comment? cs
  | [] => none

def behind? : (front text : List Char) → Option (List Char)
  | [], cs => some cs
  | _ :: _, [] => none
  | f :: fs, c :: cs => if f = c then behind? fs cs else none

def splitCommas : List Char → List (List Char)
  | [] => [[]]
  | ',' :: cs => [] :: splitCommas cs
  | c :: cs =>
    match splitCommas cs with
    | item :: items => (c :: item) :: items
    | [] => [[c]]

/-- The rules that a directive lists behind its keyword, or nothing if the keyword goes on. -/
def ruleList? (tail : List Char) : Option (List String) :=
  match tail with
  | c :: _ => if Text.isBlank c then some (items tail) else none
  | [] => some []
where
  items (tail : List Char) : List String :=
    ((splitCommas tail).map Text.trim).filterMap fun item =>
      if item.isEmpty then none else some (String.ofList item)

def nextLineKeyword : String := "mocklint-disable-next-line"

def thisLineKeyword : String := "mocklint-disable-line"

def directive? (line : Nat) (text : List Char) : Option Directive := do
  let body := Text.trim (← comment? text)
  match behind? nextLineKeyword.toList body with
  | some tail => return ⟨line + 1, ← ruleList? tail⟩
  | none => return ⟨line, ← ruleList? (← behind? thisLineKeyword.toList body)⟩

def directivesFrom (line : Nat) : List (List Char) → List Directive
  | [] => []
  | text :: more => (directive? line text).toList ++ directivesFrom (line + 1) more

def Directives.ofText (text : List Char) : Directives :=
  (directivesFrom 1 (Text.lines text)).foldl Directives.add {}

end Source
end CastLint
