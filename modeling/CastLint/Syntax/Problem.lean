import CastLint.Syntax.Grammar
import CastLint.Text.Location
import CastLint.Text.Width

/-! Mistakes as a reader of a text sees them: with the line and the column where they show. -/

namespace CastLint
namespace Syntax

/-- A mistake, by the place on a screen at which it starts. -/
structure Problem where
  location : Text.Location
  message : String
deriving DecidableEq, Repr, Inhabited

def Problem.text (p : Problem) : String :=
  p.message ++ " at " ++ toString p.location.line ++ ":" ++ toString p.location.column

/-- The line of an offset, and what stands in front of it there, in reverse. A line feed ends a
line, and so does a carriage return unless a line feed follows. -/
def lineFrom (line : Nat) (front : List Char) : List Char → Nat → Nat × List Char
  | _, 0 => (line, front)
  | [], _ + 1 => (line, front)
  | c :: cs, n + 1 =>
    if c = '\n' || (c = '\r' && cs.head? ≠ some '\n') then lineFrom (line + 1) [] cs n
    else lineFrom line (c :: front) cs (n + 1 - c.utf8Size)

def shownAt (text : List Char) (offset : Nat) : Text.Location :=
  let (line, front) := lineFrom 1 [] text offset
  ⟨line, Text.displayWidth front.reverse + 1⟩

def Issue.problem (text : List Char) (issue : Issue) : Problem :=
  ⟨shownAt text issue.span.start, issue.fault.message⟩

def withoutMark : List Char → List Char
  | '\ufeff' :: cs => cs
  | cs => cs

/-- A text that has been read: the items of its module, unless reading was given up, and what is
wrong with it. -/
structure Module where
  items : Option (List Node)
  problems : List Problem
deriving Inhabited

def Module.ofText (dialect : Dialect) (text : List Char) : Module :=
  let body := withoutMark text
  let reading := read dialect body
  ⟨reading.items, reading.issues.map (Issue.problem body)⟩

end Syntax
end CastLint
