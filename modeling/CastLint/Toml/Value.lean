import CastLint.Number.Shortest

/-! The values of a TOML document. -/

namespace CastLint
namespace Toml

structure Date where
  year : Nat
  month : Nat
  day : Nat
deriving DecidableEq, Repr, Inhabited

structure Time where
  hour : Nat
  minute : Nat
  second : Nat
  nanosecond : Nat
deriving DecidableEq, Repr, Inhabited

inductive Offset where
  | universal
  | minutes (n : Int)
deriving DecidableEq, Repr, Inhabited

structure Datetime where
  date : Option Date := none
  time : Option Time := none
  offset : Option Offset := none
deriving DecidableEq, Repr, Inhabited

def padded (width n : Nat) : String :=
  let ds := Nat.toDigits 10 n
  String.ofList (List.replicate (width - ds.length) '0' ++ ds)

def Date.text (d : Date) : String :=
  padded 4 d.year ++ "-" ++ padded 2 d.month ++ "-" ++ padded 2 d.day

def Time.fractionText (t : Time) : String :=
  if t.nanosecond = 0 then ""
  else
    let ds := (padded 9 t.nanosecond).toList.reverse.dropWhile (· = '0')
    "." ++ String.ofList ds.reverse

def Time.text (t : Time) : String :=
  padded 2 t.hour ++ ":" ++ padded 2 t.minute ++ ":" ++ padded 2 t.second ++ t.fractionText

def Offset.text : Offset → String
  | universal => "Z"
  | minutes n =>
    (if n < 0 then "-" else "+") ++ padded 2 (n.natAbs / 60) ++ ":" ++ padded 2 (n.natAbs % 60)

def Datetime.text (d : Datetime) : String :=
  let date := (d.date.map Date.text).getD ""
  let time := (d.time.map Time.text).getD ""
  let between := if d.date.isSome && d.time.isSome then "T" else ""
  date ++ between ++ time ++ (d.offset.map Offset.text).getD ""

inductive TableForm where
  /-- By a header, or as the document itself. -/
  | header
  /-- As the parent of a table with a header. -/
  | implied
  /-- By a dotted key. -/
  | dotted
  /-- Between braces. -/
  | inline
deriving DecidableEq, Repr, Inhabited

inductive Value where
  | string (s : String)
  | integer (n : Int)
  | float (x : Number.Binary64)
  | boolean (b : Bool)
  | datetime (d : Datetime)
  | array (items : List Value)
  | table (form : TableForm) (entries : List (String × Value))
  /-- The tables under headers in double brackets. -/
  | tables (items : List (List (String × Value)))
deriving Inhabited

abbrev Entries := List (String × Value)

def Value.kind : Value → String
  | string _ => "string"
  | integer _ => "integer"
  | float _ => "float"
  | boolean _ => "boolean"
  | datetime _ => "datetime"
  | array _ => "array"
  | table .inline _ => "inline table"
  | table _ _ => "table"
  | tables _ => "array of tables"

end Toml
end CastLint
