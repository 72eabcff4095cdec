import CastLint.Command.Clock
import CastLint.Command.Run
import Std.Time.DateTime.Timestamp

/-! The program: reads from the file system what a run needs, and writes what it leaves behind. -/

namespace CastLint
namespace Program

open Files Command

def realPlace? (path : ByteString) : IO (Option Place) := do
  try
    let real ← IO.FS.realPath path.shown
    if ← real.pathExists then return some (names real.toString) else return none
  catch _ => return none

def isFile (path : ByteString) : IO Bool := do
  match ← realPlace? path with
  | some place => return !(← (← IO.FS.realPath place.text.shown).isDir)
  | none => return false

def readContent (path : String) : IO Content := do
  return Content.ofBytes (← IO.FS.readBinFile path).toList

/-- The entry at a place. In directories it has the source files only, and nothing hidden. -/
partial def readEntry (place : Place) : IO (Option Entry) := do
  let real ← IO.FS.realPath place.text.shown
  if ← real.isDir then
    let mut entries : List (ByteString × Entry) := []
    for child in ← real.readDir do
      let name : ByteString := child.fileName
      if isHidden name then continue
      match (← child.path.symlinkMetadata).type with
      | .dir =>
        if let some e ← readEntry (place ++ [name]) then entries := (name, e) :: entries
      | .file => if isSource name then
          entries := (name, .file (← readContent child.path.toString)) :: entries
      | _ => continue
    return some (.directory entries)
  else if ← real.pathExists then return some (.file (← readContent real.toString))
  else return none

/-- Adds what a place leads to: the directory, and a link to it under the name in the directory in
front if it is somewhere else. -/
def addStep (tree : Entry) (parent : Option Place) (place : Place) : IO (Entry × Option Place) := do
  let some real ← realPlace? place.text | return (tree, none)
  let mut tree := tree
  if ← (← IO.FS.realPath place.text.shown).isDir then tree := tree.makeDirectory real
  match parent, place.getLast? with
  | some parent, some name =>
    if name ≠ ".." && parent ++ [name] ≠ real then
      tree := Entry.put (.link (Place.text real)) (parent ++ [name]) (some tree)
  | _, _ => pure ()
  let config := Config.configPath real
  if ← isFile config then
    tree := Entry.put (.file (← readContent config.shown)) (names config) (some tree)
  return (tree, some real)

def addWay (tree : Entry) (place : Place) : IO Entry := do
  let mut state : Entry × Option Place := (tree, none)
  for step in (Config.ancestors place).reverse do
    state ← addStep state.1 state.2 step
  return state.1

/-- The part of the file system that matters for paths: what they lead to, and the ways to them
and to the working directory. -/
def snapshot (here : Place) (paths : List ByteString) : IO Entry := do
  let mut tree : Entry := .directory []
  for path in paths do
    if let some real ← realPlace? path then
      if let some e ← readEntry real then tree := Entry.put e real (some tree)
  for place in here :: paths.map (absolute here) do
    tree ← addWay tree place
  return tree

def pathsOf (args : List String) : List ByteString :=
  match parseArguments args with
  | .ok { action := .check options, .. } => [options.path]
  | _ => []

def variableNames : List String := ["NO_COLOR", "CLICOLOR", "CLICOLOR_FORCE", logVariable]

def readVariables : IO (List (String × String)) := do
  let mut found := []
  for name in variableNames do
    if let some value ← IO.getEnv name then found := found ++ [(name, value)]
  return found

def now : IO String := do
  let time ← Std.Time.Timestamp.now
  return timestamp (time.toNanosecondsSinceUnixEpoch.val.toNat / 1000)

end Program
end CastLint

open CastLint in
def main (args : List String) : IO UInt32 := do
  let stdout ← IO.getStdout
  let here := Files.names (← IO.currentDir).toString
  let env : Command.Environment := {
    bindings := ← Program.readVariables
    directory := here
    terminal := ← stdout.isTty
    time := ← Program.now }
  let tree ← Program.snapshot here (Program.pathsOf args)
  let outcome := Command.run env tree args
  for (path, content) in outcome.writes do
    IO.FS.writeBinFile path.shown content.bytes.toByteArray
  stdout.putStr outcome.stdout
  (← IO.getStderr).putStr outcome.stderr
  return outcome.code.toUInt32
