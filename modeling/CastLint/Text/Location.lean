import CastLint.Text.Bytes

/-! Lines and columns. Both count from one, a line ends behind its line feed, and a column counts
characters. -/

namespace CastLint
namespace Text

structure Location where
  line : Nat
  column : Nat
deriving DecidableEq, Repr, Inhabited

/-- From a location up to and without another. -/
structure Range where
  start : Location
  stop : Location
deriving DecidableEq, Repr, Inhabited

/-- The location `n` bytes behind the location `l`, where `cs` starts. An offset past the end is
the end, and one inside a character is the first column of its line. -/
def locateFrom (l : Location) : List Char → Nat → Location
  | _, 0 => l
  | [], _ + 1 => l
  | c :: cs, n + 1 =>
    if c.utf8Size ≤ n + 1 then
      locateFrom (if c = '\n' then ⟨l.line + 1, 1⟩ else ⟨l.line, l.column + 1⟩) cs
        (n + 1 - c.utf8Size)
    else ⟨l.line, 1⟩

def locate (cs : List Char) (offset : Nat) : Location := locateFrom ⟨1, 1⟩ cs offset

/-- The offset `columns` characters behind the start of the line that is `lines` lines further, if
that line is as long as that. The text starts at `offset`. -/
def offsetFrom? : (offset lines columns : Nat) → List Char → Option Nat
  | offset, 0, 0, _ => some offset
  | _, _, _, [] => none
  | offset, 0, columns + 1, c :: cs =>
    if c = '\n' then none else offsetFrom? (offset + c.utf8Size) 0 columns cs
  | offset, lines + 1, columns, c :: cs =>
    offsetFrom? (offset + c.utf8Size) (if c = '\n' then lines else lines + 1) columns cs

/-- The byte offset of a location. The column behind the last character of a line is the end of
the line. -/
def offsetOf? (cs : List Char) (l : Location) : Option Nat :=
  if l.line = 0 || l.column = 0 then none else offsetFrom? 0 (l.line - 1) (l.column - 1) cs

end Text
end CastLint
