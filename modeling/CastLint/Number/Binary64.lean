/-! Binary floating-point numbers of 64 bits, as exact integers. A decimal is rounded to the
nearest of them, and a tie goes to the even mantissa. -/

namespace CastLint
namespace Number

/-- A finite number is `mantissa * 2 ^ exponent` with a mantissa below `2 ^ 53` and an exponent of
at least `-1074`. The mantissa is below `2 ^ 52` only at the least exponent. -/
inductive Binary64 where
  | finite (negative : Bool) (mantissa : Nat) (exponent : Int)
  | infinite (negative : Bool)
  | notANumber
deriving DecidableEq, Repr, Inhabited

def digitCount (n : Nat) : Nat := (Nat.toDigits 10 n).length

/-- `base ^ e` for a positive exponent, and one for any other. -/
def power (base : Nat) (e : Int) : Nat := Nat.pow base e.toNat

/-- The quotient rounded to the nearest integer, a tie to the even one. -/
def roundDiv (num den : Nat) : Nat :=
  let q := num / den
  let r := num % den
  if 2 * r < den then q
  else if den < 2 * r then q + 1
  else if q % 2 = 0 then q else q + 1

/-- The exponent of the greatest power of two that is at most `num / den`. -/
def floorLog2 (num den : Nat) : Int :=
  let guess : Int := (num.log2 : Int) - den.log2
  if num * power 2 (-guess) < den * power 2 guess then guess - 1 else guess

namespace Binary64

def negate : Binary64 → Binary64
  | finite negative m q => finite (!negative) m q
  | infinite negative => infinite (!negative)
  | notANumber => notANumber

def ofQuotient (num den : Nat) : Binary64 :=
  let q := max (floorLog2 num den - 52) (-1074)
  let m := roundDiv (num * power 2 (-q)) (den * power 2 q)
  let (m, q) := if m = Nat.pow 2 53 then (Nat.pow 2 52, q + 1) else (m, q)
  if 971 < q then infinite false else finite false m q

def ofDecimal (digits : Nat) (exponent : Int) : Binary64 :=
  let scale := exponent + digitCount digits
  if digits = 0 || scale < -330 then finite false 0 (-1074)
  else if 310 < scale then infinite false
  else ofQuotient (digits * power 10 exponent) (power 10 (-exponent))

end Binary64

end Number
end CastLint
