import CastLint.Text.Blank

/-! Message templates. A placeholder is a key in double braces. -/

namespace CastLint
namespace Lint
namespace Template

/-- A stretch of a template: text that stays, or what stands between double braces. -/
inductive Piece where
  | literal (text : List Char)
  | placeholder (content : List Char)
deriving DecidableEq, Repr

/-- What stands in front of and behind the first place where `brace` comes twice. -/
def splitAtPair? (brace : Char) : List Char → Option (List Char × List Char)
  | a :: b :: cs =>
    if a = brace && b = brace then some ([], cs)
    else (splitAtPair? brace (b :: cs)).map fun (before, after) => (a :: before, after)
  | _ => none

def piecesUpTo : (count : Nat) → List Char → List Piece
  | 0, cs => [.literal cs]
  | count + 1, cs =>
    match splitAtPair? '\x7b' cs with
    | none => [.literal cs]
    | some (text, rest) =>
      match splitAtPair? '\x7d' rest with
      | none => [.literal cs]
      | some (content, after) =>
        .literal text :: .placeholder content :: piecesUpTo count after

/-- A template taken apart from the left. Braces that are not closed are text. -/
def pieces (cs : List Char) : List Piece := piecesUpTo cs.length cs

def Piece.source : Piece → List Char
  | literal text => text
  | placeholder content => ['\x7b', '\x7b'] ++ content ++ ['\x7d', '\x7d']

/-- What a piece stands for: the value of the first entry with its key, and itself without one. -/
def Piece.value (data : List (String × String)) : Piece → List Char
  | literal text => text
  | placeholder content =>
    let key := String.ofList (Text.trim content)
    match data.find? (·.1 = key) with
    | some (_, value) => value.toList
    | none => (placeholder content).source

def render (template : String) (data : List (String × String)) : String :=
  String.ofList ((pieces template.toList).flatMap (Piece.value data))

end Template
end Lint
end CastLint
