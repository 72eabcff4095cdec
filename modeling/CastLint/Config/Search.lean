import CastLint.Config.Exclusion
import CastLint.Config.Settings
import CastLint.Files.Refusals

/-! The search for a configuration in a directory and in those above it. -/

namespace CastLint
namespace Config

open Files (Place)

def configName : ByteString := "mocklint.toml"

inductive LoadError where
  | unreadable (path : ByteString) (cause : Files.AccessError)
  | invalid (path : ByteString) (mistake : Mistake)
deriving DecidableEq, Repr

def LoadError.message : LoadError → String
  | unreadable path cause => "Failed to read config file '" ++ path.shown ++ "': " ++ cause.message
  | invalid path mistake => "Invalid TOML in '" ++ path.shown ++ "': " ++ mistake.message

def LoadError.cause? : LoadError → Option String
  | unreadable _ cause => some cause.message
  | invalid _ _ => none

structure Loaded where
  settings : Settings := {}
  path : Option ByteString := none
  warnings : List String := []
deriving Inhabited

def Loaded.directory? (l : Loaded) : Option ByteString := l.path.bind Files.parent?

def Loaded.exclusion (l : Loaded) : Except BadPattern Exclusion :=
  match parsePatterns l.settings.exclude with
  | .error e => .error e
  | .ok patterns => .ok ⟨patterns, Files.names (l.directory?.getD [])⟩

variable (refusals : Files.Refusals) (tree : Files.Entry) (here : Place)

def load (path : ByteString) : Except LoadError Loaded :=
  match refusals.read tree here path with
  | .error e => .error (.unreadable path e)
  | .ok content =>
    match Settings.ofText content with
    | .error e => .error (.invalid path e)
    | .ok (settings, warnings) => .ok ⟨settings, some path, warnings⟩

def ancestors : Place → List Place
  | [] => [[]]
  | name :: place => (ancestors place).map (name :: ·) ++ [[]]

def configPath (place : Place) : ByteString := Place.text (place ++ [configName])

/-- The nearest configuration file on the way up from a path. -/
def findConfig? (start : ByteString) : Option ByteString :=
  ((ancestors (Files.absolute here start)).map configPath).find? (tree.holdsFile here)

def loadNearest (start : ByteString) : Except LoadError Loaded :=
  match findConfig? tree here start with
  | some path => load refusals tree here path
  | none => .ok {}

end Config
end CastLint
