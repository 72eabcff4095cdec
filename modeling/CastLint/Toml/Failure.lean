/-! What can be wrong with a TOML document. -/

namespace CastLint
namespace Toml

inductive Cause where
  | tooLarge
  | tooSmall
  | outOfRange
  | tooDeep
  /-- A key that its table has already, if the table is known. -/
  | duplicateKey (key : String) (table : Option (List String))
  /-- A dotted key that leads through a value of some kind that is no table. -/
  | extendsValue (path : List String) (kind : String)
deriving DecidableEq, Repr

def backquoted (s : String) : String := "\x60" ++ s ++ "\x60"

def dottedPath (path : List String) : String := ".".intercalate path

def Cause.message : Cause → String
  | tooLarge => "number too large to fit in target type"
  | tooSmall => "number too small to fit in target type"
  | outOfRange => "value is out of range"
  | tooDeep => "recursion limit exceeded"
  | duplicateKey key none => "duplicate key " ++ backquoted key
  | duplicateKey key (some []) => "duplicate key " ++ backquoted key ++ " in document root"
  | duplicateKey key (some path) =>
    "duplicate key " ++ backquoted key ++ " in table " ++ backquoted (dottedPath path)
  | extendsValue path kind =>
    "dotted key " ++ backquoted (dottedPath path) ++ " attempted to extend non-table type (" ++
      kind ++ ")"

/-- The end of reading: the innermost part of the grammar that has a name, what could have come
instead, and the mistake. -/
structure Failure where
  /-- The text can be read in no other way. -/
  final : Bool := false
  part : Option String := none
  expected : List String := []
  cause : Option Cause := none
deriving DecidableEq, Repr, Inhabited

def Failure.message (f : Failure) : String :=
  let part := (f.part.map ("invalid " ++ ·)).toList
  let expected := if f.expected.isEmpty then [] else ["expected " ++ ", ".intercalate f.expected]
  "\n".intercalate (part ++ expected ++ (f.cause.map Cause.message).toList)

end Toml
end CastLint
