/-! The lines of a text. A line feed ends a line, together with a carriage return in front of it. -/

namespace CastLint
namespace Text

/-- Drops a carriage return at the end of a line whose characters come in reverse. -/
def dropReturn : List Char → List Char
  | '\r' :: cs => cs
  | cs => cs

def linesFrom (line : List Char) : List Char → List (List Char)
  | [] => if line.isEmpty then [] else [line.reverse]
  | c :: cs => if c = '\n' then (dropReturn line).reverse :: linesFrom [] cs
    else linesFrom (c :: line) cs

/-- The lines of a text without what ends them. Nothing behind the last line feed is no line. -/
def lines (cs : List Char) : List (List Char) := linesFrom [] cs

end Text
end CastLint
