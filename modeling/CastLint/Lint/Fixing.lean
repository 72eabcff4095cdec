import CastLint.Lint.Engine

/-! Applying fixes to a text. One pass takes the first fix of every finding, from the front of the
text to its end, and leaves out a fix that overlaps one already taken. Passes are repeated until
nothing changes, so that a fix inside another gets its turn later. -/

namespace CastLint
namespace Lint

structure InvalidRange where
  title : String
  file : String
  range : Text.Range
deriving DecidableEq, Repr

def InvalidRange.message (e : InvalidRange) : String :=
  "Fix '" ++ e.title ++ "' in " ++ e.file ++ " has an invalid range " ++
    toString e.range.start.line ++ ":" ++ toString e.range.start.column ++ "-" ++
    toString e.range.stop.line ++ ":" ++ toString e.range.stop.column

structure Edit where
  start : Nat
  stop : Nat
  text : List Char
deriving DecidableEq, Repr

namespace Edit

/-- An edit comes first that starts first, and of two with one start the longer one. -/
def precedes (a b : Edit) : Bool :=
  a.start < b.start || (a.start = b.start && b.stop ≤ a.stop)

/-- Puts an edit in its place among sorted ones, in front of those that are its equals. -/
def insert (e : Edit) : List Edit → List Edit
  | [] => [e]
  | f :: fs => if e.precedes f then e :: f :: fs else f :: insert e fs

/-- Edits in order; those with one range keep the order they have. -/
def sort (edits : List Edit) : List Edit := edits.foldr insert []

/-- The edits in order that do not start in front of `cursor` or inside one taken before. -/
def select (cursor : Nat) : List Edit → List Edit
  | [] => []
  | e :: es => if e.start < cursor then select cursor es else e :: select e.stop es

end Edit

def stretch (text : List Char) (start stop : Nat) : List Char :=
  (Text.sliceBytes text start stop).getD []

/-- The text from `cursor` on with edits applied that follow one another. -/
def splice (text : List Char) (cursor : Nat) : List Edit → List Char
  | [] => stretch text cursor (Text.byteLength text)
  | e :: es => stretch text cursor e.start ++ e.text ++ splice text e.stop es

structure FixPass where
  output : String
  applied : Nat
  skipped : Nat
deriving DecidableEq, Repr

def resolve (file : Source.File) (fix : Fix) : Except InvalidRange Edit :=
  match file.offsetOf? fix.range.start, file.offsetOf? fix.range.stop with
  | some start, some stop =>
    if start ≤ stop then .ok ⟨start, stop, fix.newText.toList⟩
    else .error ⟨fix.title, file.name, fix.range⟩
  | _, _ => .error ⟨fix.title, file.name, fix.range⟩

def resolveAll (file : Source.File) : List Fix → Except InvalidRange (List Edit)
  | [] => .ok []
  | fix :: fixes =>
    match resolve file fix with
    | .error e => .error e
    | .ok edit =>
      match resolveAll file fixes with
      | .error e => .error e
      | .ok edits => .ok (edit :: edits)

def firstFixes (diagnostics : List Diagnostic) : List Fix :=
  diagnostics.filterMap (·.fixes.head?)

/-- Applies the first fix of each finding, but none that overlaps one in front of it. -/
def applyFixes (file : Source.File) (diagnostics : List Diagnostic) :
    Except InvalidRange FixPass :=
  match resolveAll file (firstFixes diagnostics) with
  | .error e => .error e
  | .ok edits =>
    let taken := Edit.select 0 (Edit.sort edits)
    .ok {
      output := String.ofList (splice file.chars 0 taken)
      applied := taken.length
      skipped := edits.length - taken.length }

structure FixResult where
  output : String
  fixesApplied : Nat
  /-- The passes that changed the text. -/
  passes : Nat
  /-- No finding that is left has a fix. -/
  converged : Bool
  /-- What the engine finds in the output. -/
  diagnostics : List Diagnostic
deriving DecidableEq, Repr

def FixResult.changed (r : FixResult) : Bool := 0 < r.fixesApplied

def maxFixPasses : Nat := 10

section

variable (read : String → Source.File) (find : Source.File → List Diagnostic)

def fixUpTo : (left : Nat) → String → Except InvalidRange FixResult
  | 0, text =>
    let found := find (read text)
    .ok ⟨text, 0, 0, !found.any Diagnostic.isFixable, found⟩
  | left + 1, text =>
    let file := read text
    let found := find file
    match applyFixes file found with
    | .error e => .error e
    | .ok pass =>
      if pass.applied = 0 then .ok ⟨text, 0, 0, true, found⟩
      else
        match fixUpTo left pass.output with
        | .error e => .error e
        | .ok r =>
          .ok { r with fixesApplied := r.fixesApplied + pass.applied, passes := r.passes + 1 }

/-- The state of fixing after one pass: the findings before it, and what it did. -/
structure FixStep where
  found : Nat
  pass : FixPass
deriving DecidableEq, Repr

/-- Runs `count` passes, whether they change anything or not. -/
def fixTimes : (count : Nat) → String → Except InvalidRange (List FixStep)
  | 0, _ => .ok []
  | count + 1, text =>
    let file := read text
    let found := find file
    match applyFixes file found with
    | .error e => .error e
    | .ok pass =>
      match fixTimes count pass.output with
      | .error e => .error e
      | .ok steps => .ok (⟨found.length, pass⟩ :: steps)

end

/-- Fixes a text until no pass changes it. -/
def fixText (engine : Engine) (name text : String) : Except InvalidRange FixResult :=
  fixUpTo (Source.File.ofText name) engine.analyze maxFixPasses text

def fixSteps (engine : Engine) (name : String) (count : Nat) (text : String) :
    Except InvalidRange (List FixStep) :=
  fixTimes (Source.File.ofText name) engine.analyze count text

end Lint
end CastLint
