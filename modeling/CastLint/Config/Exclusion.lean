import CastLint.Files.Path
import CastLint.Glob.Matching

/-! The files that a configuration leaves out. -/

namespace CastLint
namespace Config

structure BadPattern where
  pattern : String
  error : Glob.PatternError
deriving DecidableEq, Repr

def BadPattern.reason (e : BadPattern) : String :=
  "error parsing glob '" ++ e.pattern ++ "': " ++ e.error.message

def BadPattern.message (e : BadPattern) : String :=
  "Invalid exclude pattern '" ++ e.pattern ++ "': " ++ e.reason

def parsePatterns : List String → Except BadPattern (List Glob.Pattern)
  | [] => .ok []
  | text :: texts =>
    match Glob.Pattern.parse text with
    | .error e => .error ⟨text, e⟩
    | .ok p =>
      match parsePatterns texts with
      | .error e => .error e
      | .ok ps => .ok (p :: ps)

def matchesAny (patterns : List Glob.Pattern) (path : ByteString) : Bool :=
  patterns.any (·.isMatch path)

/-- Patterns of the files to leave out, seen from the place of the configuration. -/
structure Exclusion where
  patterns : List Glob.Pattern := []
  base : Files.Place := []
deriving Inhabited

def Exclusion.excludes (x : Exclusion) (here : Files.Place) (path : ByteString) : Bool :=
  matchesAny x.patterns <|
    match Files.below? x.base (Files.absolute here path) with
    | some place => [ByteString.slash].intercalate place
    | none => path

end Config
end CastLint
