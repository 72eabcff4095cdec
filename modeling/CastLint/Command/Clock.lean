/-! Points in time as texts. -/

namespace CastLint
namespace Command

structure CivilDate where
  year : Nat
  month : Nat
  day : Nat
deriving DecidableEq, Repr

/-- The days from the first of March of the year zero to the first of January 1970. -/
def epochDays : Nat := 719468

/-- The date so many days after the first of January 1970. A year counts from March, so that its
last day may be the one that is added in a leap year. -/
def CivilDate.ofDays (days : Nat) : CivilDate :=
  let day := days + epochDays
  let era := day / 146097
  let inEra := day % 146097
  let yearOfEra := (inEra - inEra / 1460 + inEra / 36524 - inEra / 146096) / 365
  let inYear := inEra - (365 * yearOfEra + yearOfEra / 4 - yearOfEra / 100)
  let fromMarch := (5 * inYear + 2) / 153
  let month := if fromMarch < 10 then fromMarch + 3 else fromMarch - 9
  ⟨yearOfEra + era * 400 + (if month ≤ 2 then 1 else 0), month,
    inYear - (153 * fromMarch + 2) / 5 + 1⟩

def zeroPadded (width n : Nat) : String :=
  let digits := Nat.toDigits 10 n
  String.ofList (List.replicate (width - digits.length) '0' ++ digits)

/-- A universal time, as microseconds from the start of 1970. -/
def timestamp (microseconds : Nat) : String :=
  let seconds := microseconds / 1000000
  let date := CivilDate.ofDays (seconds / 86400)
  let time := seconds % 86400
  zeroPadded 4 date.year ++ "-" ++ zeroPadded 2 date.month ++ "-" ++ zeroPadded 2 date.day ++
    "T" ++ zeroPadded 2 (time / 3600) ++ ":" ++ zeroPadded 2 (time / 60 % 60) ++ ":" ++
    zeroPadded 2 (time % 60) ++ "." ++ zeroPadded 6 (microseconds % 1000000) ++ "Z"

end Command
end CastLint
