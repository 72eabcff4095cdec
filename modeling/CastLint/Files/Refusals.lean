import CastLint.Files.Tree

/-! What the system refuses to do with a path, whatever the path leads to. -/

namespace CastLint
namespace Files

structure WriteFault where
  error : AccessError
  /-- The number of bytes that were written, unless the file could not be opened. -/
  written : Option Nat := none
deriving DecidableEq, Repr

/-- What a file holds after a text could not be written to it, unless it holds what it held. -/
def WriteFault.left? (fault : WriteFault) (text : String) : Option Content :=
  fault.written.map fun n => .ofBytes ((ByteString.ofString text).take n)

structure Refusals where
  finds : ByteString → Option AccessError
  /-- Of directories. -/
  lists : ByteString → Option AccessError
  reads : ByteString → Option AccessError
  writes : ByteString → Option WriteFault

def maxPathLength : Nat := 4096

def lengthError? (path : ByteString) : Option AccessError :=
  if maxPathLength ≤ path.length then some .nameTooLong else none

namespace Refusals

def ofLength : Refusals where
  finds := lengthError?
  lists := lengthError?
  reads := lengthError?
  writes path := (lengthError? path).map fun e => { error := e }

variable (refusals : Refusals) (tree : Entry) (here : Place) (path : ByteString)

def find? : Option Entry :=
  match refusals.finds path with
  | some _ => none
  | none => tree.find? here path

def read : Except AccessError String :=
  match refusals.reads path with
  | some e => .error e
  | none => tree.read here path

end Refusals

end Files
end CastLint
