import CastLint.Source.Directive
import CastLint.Source.Language
import CastLint.Syntax.Problem
import CastLint.Text.Quoted

/-! A source file: its text together with what reading it has found. -/

namespace CastLint
namespace Source

structure File where
  name : String
  text : String
  language : Language
  module : Syntax.Module
  directives : Directives
deriving Inhabited

namespace File

def ofText (name text : String) : File :=
  let language := Language.ofFilename name
  { name := name
    text := text
    language := language
    module := Syntax.Module.ofText language.dialect text.toList
    directives := Directives.ofText text.toList }

variable (file : File)

def chars : List Char := file.text.toList

def lineCount : Nat := (Text.lines file.chars).length

def hasProblems : Bool := !file.module.problems.isEmpty

/-- The span between two positions, which count from one, if it lies inside the text. -/
def span? (lo hi : Nat) : Option Syntax.Span :=
  if lo = 0 || hi = 0 || hi < lo || Text.byteLength file.chars < hi - 1 then none
  else some ⟨lo - 1, hi - 1⟩

def contains (span : Syntax.Span) : Bool :=
  span.start ≤ span.stop && span.stop ≤ Text.byteLength file.chars

def locationOf (offset : Nat) : Text.Location := Text.locate file.chars offset

def offsetOf? (l : Text.Location) : Option Nat := Text.offsetOf? file.chars l

def rangeOf? (span : Syntax.Span) : Option Text.Range :=
  if file.contains span then some ⟨file.locationOf span.start, file.locationOf span.stop⟩
  else none

/-- The text of a span, unless an end of it lies inside a character. -/
def textOf? (span : Syntax.Span) : Option String :=
  if file.contains span then
    (Text.sliceBytes file.chars span.start span.stop).map String.ofList
  else none

def summary : String :=
  "ParsedFile \x7b metadata: FileMetadata \x7b filename: " ++ Text.quoted file.name ++
    ", language: " ++ file.language.name ++ ", line_count: " ++ toString file.lineCount ++
    ", has_errors: " ++ toString file.hasProblems ++ " \x7d, has_module: " ++
    toString file.module.items.isSome ++ ", error_count: " ++
    toString file.module.problems.length ++ " \x7d"

end File

end Source
end CastLint
