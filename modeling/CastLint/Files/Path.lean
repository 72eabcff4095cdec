import CastLint.Text.ByteString

/-! Paths, as bytes and as lists of the names between slashes. -/

namespace CastLint
namespace Files

open ByteString (slash dot)

/-- The names on the way from the root of the file system. -/
abbrev Place := List ByteString

def splitSlashes : ByteString → List ByteString
  | [] => [[]]
  | b :: bs =>
    if b = slash then [] :: splitSlashes bs
    else
      match splitSlashes bs with
      | part :: parts => (b :: part) :: parts
      | [] => [[b]]

def isAbsolute (path : ByteString) : Bool := path.head? = some slash

/-- The steps that a path asks for. A slash at the end asks for a directory. -/
def steps (path : ByteString) : List ByteString :=
  let parts := splitSlashes path
  let asked := parts.filter (· ≠ [])
  if parts.length > 1 && parts.getLast? = some [] then asked ++ [ByteString.ofString "."] else asked

/-- The names in a path, without those that stand for the directory itself. -/
def names (path : ByteString) : List ByteString := (steps path).filter (· ≠ ".")

/-- The place that a path names for someone in a directory. Steps to the parent stay in it. -/
def absolute (directory : Place) (path : ByteString) : Place :=
  if isAbsolute path then names path else directory ++ names path

def Place.text (place : Place) : ByteString := slash :: [slash].intercalate place

def join (directory name : ByteString) : ByteString :=
  if directory.getLast? = some slash then directory ++ name else directory ++ slash :: name

/-- Drops what does not name anything at the end of the parts of a path, which are in reverse. -/
def dropVoid (parts : List ByteString) : List ByteString :=
  parts.dropWhile fun p => p = [] || p = "."

def parent? (path : ByteString) : Option ByteString :=
  match dropVoid (splitSlashes path).reverse with
  | [] => none
  | _ :: rest =>
    match dropVoid rest with
    | [] => some (if isAbsolute path then "/" else "")
    | parts => some ([slash].intercalate parts.reverse)

def fileName? (path : ByteString) : Option ByteString := (names path).getLast?.filter (· ≠ "..")

/-- What follows the last dot of a file's name, unless nothing stands in front of the dot. -/
def fileExtension? (path : ByteString) : Option ByteString := do
  let reversed := (← fileName? path).reverse
  match reversed.dropWhile (· ≠ dot) with
  | _ :: _ :: _ => return (reversed.takeWhile (· ≠ dot)).reverse
  | _ => none

def below? : (base place : Place) → Option Place
  | [], place => some place
  | _ :: _, [] => none
  | b :: bs, p :: ps => if b = p then below? bs ps else none

end Files
end CastLint
