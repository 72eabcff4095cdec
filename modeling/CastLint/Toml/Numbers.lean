import CastLint.Toml.Strings
import CastLint.Toml.Value

/-! Numbers, dates and times of a TOML document. -/

namespace CastLint
namespace Toml

open Reader

/-- The digits that go on behind the first one. An underscore must have a digit behind it. -/
def moreDigits (isDigit : Char → Bool) : List Char → Except Failure (List Char × List Char)
  | [] => .ok ([], [])
  | '_' :: d :: cs =>
    if isDigit d then
      match moreDigits isDigit cs with
      | .ok (ds, rest) => .ok (d :: ds, rest)
      | .error e => .error e
    else .error { final := true, expected := ["digit"] }
  | c :: cs =>
    if isDigit c then
      match moreDigits isDigit cs with
      | .ok (ds, rest) => .ok (c :: ds, rest)
      | .error e => .error e
    else if c = '_' then .error { final := true, expected := ["digit"] }
    else .ok ([], c :: cs)

def digits (isDigit : Char → Bool) : Reader (List Char) := do
  let d ← satisfy isDigit
  return d :: (← moreDigits isDigit)

def sign : Reader Bool := do
  match ← optional (satisfy fun c => c = '+' || c = '-') with
  | some c => return c = '-'
  | none => return false

/-- A sign and decimal digits, of which the first is zero only if it is the only one. -/
def decimalDigits : Reader (Bool × List Char) := named "integer" do
  let negative ← sign
  match ← satisfy Char.isDigit with
  | '0' => return (negative, ['0'])
  | d => return (negative, d :: (← moreDigits Char.isDigit))

/-- The greatest integer is `2 ^ 63 - 1`, and the least is `-2 ^ 63`. -/
def checkedInteger (negative : Bool) (n : Nat) : Reader Int :=
  if negative then
    if n ≤ Nat.pow 2 63 then pure (-(n : Int)) else refuse .tooSmall
  else
    if n < Nat.pow 2 63 then pure n else refuse .tooLarge

def based (mark : Char) (part : String) (base : Nat) (isDigit : Char → Bool) : Reader Int := do
  let ds ← named part do
    word ['0', mark]
    commit (digits isDigit)
  checkedInteger false (digitsValue base ds)

def decimalInteger : Reader Int := do
  let (negative, ds) ← decimalDigits
  checkedInteger negative (digitsValue 10 ds)

def integer : Reader Int := do
  match (← rest).take 2 with
  | ['0', 'x'] => based 'x' "hexadecimal integer" 16 isHexDigit
  | ['0', 'o'] => based 'o' "octal integer" 8 fun c => '0' ≤ c && c ≤ '7'
  | ['0', 'b'] => based 'b' "binary integer" 2 fun c => c = '0' || c = '1'
  | _ => decimalInteger

def exponent : Reader Int := do
  let _ ← satisfy fun c => c = 'e' || c = 'E'
  let negative ← sign
  let n := digitsValue 10 (← commit (digits Char.isDigit))
  return if negative then -(n : Int) else n

def fraction : Reader (List Char) := do
  char '.'
  expecting ["digit"] (commit (digits Char.isDigit))

def decimal : Reader Number.Binary64 := do
  let (negative, whole) ← decimalDigits
  let withPower : Reader (List Char × Int) := do
    return ([], ← exponent)
  let withFraction : Reader (List Char × Int) := do
    let ds ← fraction
    return (ds, (← optional exponent).getD 0)
  let (ds, e) ← orElse withPower withFraction
  let x := Number.Binary64.ofDecimal (digitsValue 10 (whole ++ ds)) (e - ds.length)
  match negative, x with
  | false, .infinite _ => commit fail
  | false, x => return x
  | true, x => return x.negate

def infinity : Reader Number.Binary64 := do
  word ['i', 'n', 'f']
  return .infinite false

def notANumber : Reader Number.Binary64 := do
  word ['n', 'a', 'n']
  return .notANumber

def float : Reader Number.Binary64 :=
  named "floating-point number" <| orElse decimal do
    let negative ← sign
    let x ← orElse infinity notANumber
    return if negative then x.negate else x

def twoDigits (least greatest : Nat) : Reader Nat := do
  let n := digitsValue 10 (← exactly Char.isDigit 2)
  if least ≤ n && n ≤ greatest then return n else decline .outOfRange

def isLeapYear (year : Nat) : Bool := year % 4 = 0 && (year % 100 ≠ 0 || year % 400 = 0)

def daysInMonth (year month : Nat) : Nat :=
  match month with
  | 2 => if isLeapYear year then 29 else 28
  | 4 | 6 | 9 | 11 => 30
  | _ => 31

def date : Reader Date := do
  let year := digitsValue 10 (← exactly Char.isDigit 4)
  char '-'
  commit do
    let month ← twoDigits 1 12
    char '-'
    let day ← twoDigits 1 31
    if daysInMonth year month < day then refuse .outOfRange
    return ⟨year, month, day⟩

/-- The digits behind the point of the seconds. Those past the ninth do not count. -/
def nanoseconds : Reader Nat := do
  char '.'
  let ds := (← takeWhile1 Char.isDigit).take 9
  return digitsValue 10 ds * Nat.pow 10 (9 - ds.length)

def time : Reader Time := do
  let hour ← twoDigits 0 23
  char ':'
  commit do
    let minute ← twoDigits 0 59
    char ':'
    let second ← twoDigits 0 60
    return ⟨hour, minute, second, (← optional nanoseconds).getD 0⟩

def offset : Reader Offset := named "time offset" <|
  orElse (do let _ ← satisfy fun c => c = 'Z' || c = 'z'; return .universal) do
    let c ← satisfy fun c => c = '+' || c = '-'
    commit do
      let hours ← twoDigits 0 23
      char ':'
      let n : Int := hours * 60 + (← twoDigits 0 59)
      return .minutes (if c = '-' then -n else n)

def datetime : Reader Datetime :=
  let timeOfDay : Reader (Time × Option Offset) := do
    let _ ← satisfy fun c => c = 'T' || c = 't' || c = ' '
    let t ← time
    return (t, ← optional offset)
  let withDate : Reader Datetime := do
    let d ← date
    match ← optional timeOfDay with
    | some (t, o) => return ⟨some d, some t, o⟩
    | none => return ⟨some d, none, none⟩
  orElse (named "date-time" withDate) <| named "time" do
    return ⟨none, some (← time), none⟩

end Toml
end CastLint
