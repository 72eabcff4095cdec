import CastLint.Files.Refusals
import CastLint.Text.Sorted

/-! The source files below a path. -/

namespace CastLint
namespace Files

def sourceExtensions : List String := ["js", "jsx", "ts", "tsx", "mjs", "cjs", "mts", "cts"]

def isSource (path : ByteString) : Bool :=
  ((fileExtension? path).bind (·.text?)).any sourceExtensions.contains

/-- What lies under such a name is left out. A name that encodes no text is none of them. -/
def isHidden (name : ByteString) : Bool :=
  name.text?.any fun s => s.toList.head? = some '.' || s = "node_modules"

/-- What a walk through a directory comes to: a file, or a directory that cannot be listed. -/
inductive Sight where
  | file | unlisted
deriving DecidableEq, Repr

def gather (found : List (ByteString × List (Place × Sight))) : List (Place × Sight) :=
  (Text.sortBy (·.1) found).flatMap fun (name, sights) =>
    sights.map fun (place, sight) => (name :: place, sight)

mutual

/-- What a walk comes to below an entry, without what is hidden. Links are not followed. -/
def sights : (refused : Place → Bool) → Entry → List (Place × Sight)
  | _, .file _ => [([], .file)]
  | _, .link _ => []
  | refused, .directory entries =>
    if refused [] then [([], .unlisted)] else gather (sightsBelow refused entries)

def sightsBelow : (refused : Place → Bool) → List (ByteString × Entry) →
    List (ByteString × List (Place × Sight))
  | _, [] => []
  | refused, (name, e) :: es =>
    if isHidden name then sightsBelow refused es
    else (name, sights (fun place => refused (name :: place)) e) :: sightsBelow refused es

end

def placesOf (sight : Sight) (found : List (Place × Sight)) : List Place :=
  found.filterMap fun (place, seen) => if seen = sight then some place else none

def pathBelow (path : ByteString) (place : Place) : ByteString := place.foldl join path

def Refusals.unlists (refusals : Refusals) (path : ByteString) (place : Place) : Bool :=
  (refusals.lists (pathBelow path place)).isSome

section

variable (refusals : Refusals) (tree : Entry) (here : Place) (path : ByteString)

/-- What a walk comes to below a path, for someone in the directory `here`, unless it leads
nowhere. -/
def survey? : Option (List (Place × Sight)) :=
  (refusals.find? tree here path).map (sights (refusals.unlists path))

/-- The source files that a path leads to. A file is its own answer. -/
def discover? (excluded : ByteString → Bool) : Option (List ByteString) :=
  (survey? refusals tree here path).map fun found =>
    ((placesOf .file found).map (pathBelow path)).filter fun p => isSource p && !excluded p

def skipped : List (ByteString × AccessError) :=
  (placesOf .unlisted ((survey? refusals tree here path).getD [])).filterMap fun place =>
    (refusals.lists (pathBelow path place)).map fun e => (pathBelow path place, e)

end

end Files
end CastLint
