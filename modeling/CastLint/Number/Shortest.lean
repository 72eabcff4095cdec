import CastLint.Number.Binary64

/-! The decimal text of a binary number: the fewest digits that read back as it, and of those the
nearest to it. -/

namespace CastLint
namespace Number

structure Decimal where
  digits : Nat
  exponent : Int
deriving DecidableEq, Repr, Inhabited

namespace Decimal

def stripUpTo : (count : Nat) → Decimal → Decimal
  | 0, d => d
  | count + 1, d =>
    if d.digits % 10 = 0 && 0 < d.digits then stripUpTo count ⟨d.digits / 10, d.exponent + 1⟩
    else d

def strip (d : Decimal) : Decimal := stripUpTo (digitCount d.digits) d

def digitText (d : Decimal) : List Char := Nat.toDigits 10 d.digits

def point (d : Decimal) : Int := d.exponent + digitCount d.digits

def positional (d : Decimal) : List Char :=
  let ds := d.digitText
  let n := d.point
  if n ≤ 0 then ['0', '.'] ++ List.replicate (-n).toNat '0' ++ ds
  else if 0 ≤ d.exponent then ds ++ List.replicate d.exponent.toNat '0' ++ ['.', '0']
  else ds.take n.toNat ++ '.' :: ds.drop n.toNat

def scientific (d : Decimal) : List Char :=
  let mantissa := match d.digitText with
    | c :: [] => [c]
    | c :: cs => c :: '.' :: cs
    | [] => []
  mantissa ++ 'e' :: (toString (d.point - 1)).toList

end Decimal

/-- The reals that round to a number, all in units of the decimal grid's divisor: its value `mid`,
the ends `lo` and `hi`, and whether the ends belong to it. -/
structure Interval where
  lo : Nat
  mid : Nat
  hi : Nat
  closed : Bool
deriving DecidableEq, Repr

def Interval.contains (i : Interval) (x : Nat) : Bool :=
  if i.closed then i.lo ≤ x && x ≤ i.hi else i.lo < x && x < i.hi

/-- The multiple of `step` in an interval that is nearest to its value, of two equally near ones
the greater. -/
def Interval.nearest? (i : Interval) (step : Nat) : Option Nat :=
  let below := i.mid / step
  let above := below + 1
  match i.contains (below * step), i.contains (above * step) with
  | true, true => some (if above * step - i.mid ≤ i.mid - below * step then above else below)
  | true, false => some below
  | false, true => some above
  | false, false => none

/-- The decimal on the grid of `10 ^ grid` that reads back as `m * 2 ^ q`. -/
def onGrid? (m : Nat) (q grid : Int) (narrow : Bool) : Option Decimal :=
  let unit := power 2 (q - 2) * power 10 (-grid)
  let step := power 10 grid * power 2 (2 - q)
  let i : Interval :=
    { lo := (4 * m - if narrow then 1 else 2) * unit
      mid := 4 * m * unit
      hi := (4 * m + 2) * unit
      closed := m % 2 = 0 }
  (i.nearest? step).map (⟨·, grid⟩)

def floorLog10 (num den : Nat) : Int :=
  let guess : Int := (digitCount num : Int) - digitCount den
  if num * power 10 (-guess) < den * power 10 guess then guess - 1 else guess

def shortestFrom (m : Nat) (q top : Int) (narrow : Bool) : (left count : Nat) → Option Decimal
  | 0, _ => none
  | left + 1, count =>
    onGrid? m q (top + 1 - count) narrow <|> shortestFrom m q top narrow left (count + 1)

def shortest (m : Nat) (q : Int) : Decimal :=
  let top := floorLog10 (m * power 2 q) (power 2 (-q))
  let narrow := m = Nat.pow 2 52 && -1074 < q
  ((shortestFrom m q top narrow 17 1).getD ⟨m, 0⟩).strip

namespace Binary64

def signText (negative : Bool) : String := if negative then "-" else ""

/-- The digits of a number between `10 ^ (-4)` and `10 ^ 16` around a point, and those of any other
with a power of ten. -/
def text : Binary64 → String
  | notANumber => "NaN"
  | infinite negative => signText negative ++ "inf"
  | finite negative 0 _ => signText negative ++ "0.0"
  | finite negative m q =>
    let d := shortest m q
    let plain := -4 < d.point && d.point ≤ 16
    signText negative ++ String.ofList (if plain then d.positional else d.scientific)

def plainText : Binary64 → String
  | notANumber => "NaN"
  | infinite negative => signText negative ++ "inf"
  | finite negative 0 _ => signText negative ++ "0.0"
  | finite negative m q => signText negative ++ String.ofList (shortest m q).positional

def shortText (x : Binary64) : String :=
  let cs := x.plainText.toList
  match cs.reverse with
  | '0' :: '.' :: whole => String.ofList whole.reverse
  | _ => String.ofList cs

end Binary64

end Number
end CastLint
