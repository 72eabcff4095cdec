import CastLint.Number.Shortest

/-! The values of numbers as a program spells them, and the text that a value has in a message. -/

namespace CastLint
namespace Syntax

def hexValue? (c : Char) : Option Nat :=
  if c.isDigit then some (c.toNat - 48)
  else if 'a' ≤ c && c ≤ 'f' then some (c.toNat - 87)
  else if 'A' ≤ c && c ≤ 'F' then some (c.toNat - 55)
  else none

def isDigitOf (radix : Nat) (c : Char) : Bool := (hexValue? c).any (· < radix)

def digitsValue (radix : Nat) (cs : List Char) : Nat :=
  cs.foldl (fun n c => radix * n + (hexValue? c).getD 0) 0

/-- The radix of a numeral and its digits without what tells the radix. A zero in front of octal
digits tells the radix too. -/
def radixOf (cs : List Char) : Nat × List Char :=
  match cs with
  | '0' :: c :: rest =>
    if c = 'x' || c = 'X' then (16, rest)
    else if c = 'o' || c = 'O' then (8, rest)
    else if c = 'b' || c = 'B' then (2, rest)
    else if (c :: rest).all (isDigitOf 8) then (8, c :: rest)
    else (10, cs)
  | _ => (10, cs)

def decimalValue (cs : List Char) : Number.Binary64 :=
  let isMark := fun c => c = 'e' || c = 'E'
  let front := cs.takeWhile (!isMark ·)
  let whole := front.takeWhile (· ≠ '.')
  let fraction := (front.dropWhile (· ≠ '.')).drop 1
  let exponent : Int := match (cs.dropWhile (!isMark ·)).drop 1 with
    | '-' :: ds => -(digitsValue 10 ds : Int)
    | '+' :: ds => digitsValue 10 ds
    | ds => digitsValue 10 ds
  Number.Binary64.ofDecimal (digitsValue 10 (whole ++ fraction)) (exponent - fraction.length)

def numeralValue (raw : String) : Number.Binary64 :=
  let cs := raw.toList.filter (· ≠ '_')
  match radixOf cs with
  | (10, _) => decimalValue cs
  | (radix, ds) => Number.Binary64.ofDecimal (digitsValue radix ds) 0

def integerValue (raw : String) : Nat :=
  let (radix, ds) := radixOf (raw.toList.filter (· ≠ '_')).dropLast
  digitsValue radix ds

end Syntax
end CastLint
