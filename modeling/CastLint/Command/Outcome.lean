import CastLint.Files.Refusals

/-! What a run of the program needs and what it leaves behind. -/

namespace CastLint
namespace Command

structure Environment where
  /-- The values of variables. -/
  bindings : List (String × String) := []
  /-- The working directory. -/
  directory : Files.Place
  /-- Output goes to a terminal. -/
  terminal : Bool := false
  /-- The time in front of log records. -/
  time : String
  refusals : Files.Refusals := .ofLength

/-- A variable is set to something other than zero. -/
def Environment.isOn (env : Environment) (name : String) : Bool :=
  (env.bindings.lookup name).any (· ≠ "0")

def Environment.isSet (env : Environment) (name : String) : Bool :=
  (env.bindings.lookup name).isSome

/-- Output has colours when they are forced, or else on a terminal where nothing speaks against
them. -/
def Environment.coloured (env : Environment) : Bool :=
  env.isOn "CLICOLOR_FORCE" ||
    (!env.isSet "NO_COLOR" && env.terminal && (env.bindings.lookup "CLICOLOR").all (· ≠ "0"))

structure Outcome where
  code : Nat := 0
  stdout : String := ""
  stderr : String := ""
  /-- The files that get new contents. -/
  writes : List (ByteString × Files.Content) := []
deriving DecidableEq, Repr

def applyWrites (here : Files.Place) (writes : List (ByteString × Files.Content))
    (tree : Files.Entry) : Files.Entry :=
  writes.foldl (fun t (path, content) => t.write here path content) tree

structure Failure where
  message : String
  causes : List String := []
deriving DecidableEq, Repr

def indent (first other text : String) : String :=
  first ++ ("\n" ++ other).intercalate (text.splitOn "\n")

/-- One cause is indented, and several are numbered. -/
def causeTexts : List String → List String
  | [cause] => [indent "    " "    " cause]
  | causes => causes.mapIdx fun i cause => indent ("    " ++ toString i ++ ": ") "       " cause

def Failure.text (f : Failure) : String :=
  "Error: " ++ f.message ++ "\n" ++
    if f.causes.isEmpty then "" else "\nCaused by:\n" ++ "\n".intercalate (causeTexts f.causes) ++ "\n"

def Failure.outcome (f : Failure) (stderr : String) (writes : List (ByteString × Files.Content)) :
    Outcome :=
  { code := 1, stderr := stderr ++ f.text, writes := writes }

end Command
end CastLint
