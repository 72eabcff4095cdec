/-! Bold and coloured words for terminals. -/

namespace CastLint
namespace Report

inductive Colour where
  | red | green | yellow | blue | cyan
deriving DecidableEq, Repr

inductive Weight where
  | normal | bold | dimmed
deriving DecidableEq, Repr

structure Style where
  weight : Weight := .normal
  colour : Option Colour := none
deriving DecidableEq, Repr

def Colour.code : Colour → String
  | red => "31"
  | green => "32"
  | yellow => "33"
  | blue => "34"
  | cyan => "36"

def Weight.codes : Weight → List String
  | normal => []
  | bold => ["1"]
  | dimmed => ["2"]

/-- The sequence that turns a style on, the weight in front of the colour. -/
def Style.opening (s : Style) : String :=
  "\x1b[" ++ ";".intercalate (s.weight.codes ++ (s.colour.map Colour.code).toList) ++ "m"

def closing : List Char := ['\x1b', '[', '0', 'm']

/-- Turns a style on again behind every sequence in a text that turns it off. -/
def keepStyle (opening : List Char) : List Char → List Char
  | '\x1b' :: '[' :: '0' :: 'm' :: cs => closing ++ opening ++ keepStyle opening cs
  | c :: cs => c :: keepStyle opening cs
  | [] => []

abbrev Coloured := Bool

def paint (coloured : Coloured) (style : Style) (text : String) : String :=
  if coloured then
    style.opening ++ String.ofList (keepStyle style.opening.toList text.toList ++ closing)
  else text

namespace Style

def bold : Style := ⟨.bold, none⟩

def dimmed : Style := ⟨.dimmed, none⟩

def plain (c : Colour) : Style := ⟨.normal, some c⟩

def strong (c : Colour) : Style := ⟨.bold, some c⟩

end Style

end Report
end CastLint
