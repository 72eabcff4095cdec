/-! JSON values and their texts: on one line, or with one item on a line. -/

namespace CastLint
namespace Report

inductive Json where
  | string (s : String)
  | number (n : Nat)
  | boolean (b : Bool)
  | array (items : List Json)
  | object (fields : List (String × Json))
deriving Inhabited

namespace Json

/-- One character of a text in quotes. Quotes, backslashes and control characters are escaped. -/
def escape (c : Char) : List Char :=
  if c = '"' then ['\\', '"']
  else if c = '\\' then ['\\', '\\']
  else if c = '\x08' then ['\\', 'b']
  else if c = '\x0c' then ['\\', 'f']
  else if c = '\n' then ['\\', 'n']
  else if c = '\r' then ['\\', 'r']
  else if c = '\t' then ['\\', 't']
  else if c.toNat < 32 then
    ['\\', 'u', '0', '0', Nat.digitChar (c.toNat / 16), Nat.digitChar (c.toNat % 16)]
  else [c]

def quote (s : String) : List Char := ['"'] ++ s.toList.flatMap escape ++ ['"']

def digits (n : Nat) : List Char := Nat.toDigits 10 n

def booleanText (b : Bool) : List Char := if b then "true".toList else "false".toList

mutual

def compact : Json → List Char
  | string s => quote s
  | number n => digits n
  | boolean b => booleanText b
  | array [] => "[]".toList
  | array (j :: js) => ['['] ++ compact j ++ compactItems js ++ [']']
  | object [] => ['\x7b', '\x7d']
  | object ((k, j) :: kjs) =>
    ['\x7b'] ++ quote k ++ [':'] ++ compact j ++ compactFields kjs ++ ['\x7d']

def compactItems : List Json → List Char
  | [] => []
  | j :: js => [','] ++ compact j ++ compactItems js

def compactFields : List (String × Json) → List Char
  | [] => []
  | (k, j) :: kjs => [','] ++ quote k ++ [':'] ++ compact j ++ compactFields kjs

end

def newLine (depth : Nat) : List Char := '\n' :: List.replicate (2 * depth) ' '

mutual

/-- The text with every item on a line, indented by its depth. -/
def spread (depth : Nat) : Json → List Char
  | string s => quote s
  | number n => digits n
  | boolean b => booleanText b
  | array [] => "[]".toList
  | array (j :: js) =>
    ['['] ++ newLine (depth + 1) ++ spread (depth + 1) j ++ spreadItems (depth + 1) js ++
      newLine depth ++ [']']
  | object [] => ['\x7b', '\x7d']
  | object ((k, j) :: kjs) =>
    ['\x7b'] ++ newLine (depth + 1) ++ quote k ++ [':', ' '] ++ spread (depth + 1) j ++
      spreadFields (depth + 1) kjs ++ newLine depth ++ ['\x7d']

def spreadItems (depth : Nat) : List Json → List Char
  | [] => []
  | j :: js => [','] ++ newLine depth ++ spread depth j ++ spreadItems depth js

def spreadFields (depth : Nat) : List (String × Json) → List Char
  | [] => []
  | (k, j) :: kjs =>
    [','] ++ newLine depth ++ quote k ++ [':', ' '] ++ spread depth j ++ spreadFields depth kjs

end

def line (j : Json) : String := String.ofList j.compact

def pretty (j : Json) : String := String.ofList (j.spread 0)

def optional (name : String) (value : Option Json) : List (String × Json) :=
  (value.map fun v => (name, v)).toList

end Json

end Report
end CastLint
