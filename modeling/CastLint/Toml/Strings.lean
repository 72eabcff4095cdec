import CastLint.Toml.Reader

/-! Blanks, comments and strings of a TOML document. -/

namespace CastLint
namespace Toml

open Reader

def isSpace (c : Char) : Bool := c = ' ' || c = '\t'

/-- Characters of a comment: all but control characters, of which only the tab may stand. -/
def isPrintable (c : Char) : Bool :=
  c = '\t' || (0x20 ≤ c.toNat && c.toNat ≠ 0x7f)

def isBasicChar (c : Char) : Bool := isPrintable c && c ≠ '"' && c ≠ '\\'

def isLiteralChar (c : Char) : Bool := isPrintable c && c ≠ '\''

def isHexDigit (c : Char) : Bool :=
  c.isDigit || ('a' ≤ c && c ≤ 'f') || ('A' ≤ c && c ≤ 'F')

def hexDigit (c : Char) : Nat :=
  if c.isDigit then c.toNat - '0'.toNat
  else if 'a' ≤ c then c.toNat - 'a'.toNat + 10
  else c.toNat - 'A'.toNat + 10

def digitsValue (base : Nat) (ds : List Char) : Nat :=
  ds.foldl (fun n d => base * n + hexDigit d) 0

def spaces : Reader Unit := do
  let _ ← takeWhile isSpace

def newline : Reader Unit := orElse (char '\n') (word ['\r', '\n'])

def comment : Reader Unit := do
  char '#'
  let _ ← takeWhile isPrintable

def lineEnd : Reader Unit := orElse newline atEnd

def lineRest : Reader Unit := do
  spaces
  let _ ← optional comment
  lineEnd

def gapUpTo : (count : Nat) → Reader Unit
  | 0 => pure ()
  | count + 1 => do
    spaces
    match ← peek? with
    | some '#' =>
      comment
      newline
      gapUpTo count
    | some '\n' | some '\r' =>
      newline
      gapUpTo count
    | _ => pure ()

def gap : Reader Unit := do gapUpTo ((← rest).length + 1)

def codePoint (digits : Nat) : Reader Char := do
  let n := digitsValue 16 (← exactly isHexDigit digits)
  if h : n.isValidChar then return Char.ofNatAux n h else decline .outOfRange

def escapeMarks : List String :=
  ["b", "f", "n", "r", "t", "u", "U", "\\", "\""].map backquoted

def escaped : Reader Char := do
  char '\\'
  match ← satisfy fun _ => true with
  | 'b' => return '\x08'
  | 'f' => return '\x0c'
  | 'n' => return '\n'
  | 'r' => return '\r'
  | 't' => return '\t'
  | 'u' => named "unicode 4-digit hex code" (commit (codePoint 4))
  | 'U' => named "unicode 8-digit hex code" (commit (codePoint 8))
  | '\\' => return '\\'
  | '"' => return '"'
  | _ => named "escape sequence" (expecting escapeMarks (commit fail))

def basicString : Reader String := do
  char '"'
  let pieces ← many (orElse (takeWhile1 isBasicChar) ((fun c => [c]) <$> escaped))
  named "basic string" (commit (char '"'))
  return String.ofList pieces.flatten

/-- A text between single quotes on one line, in which a backslash is a character like others. -/
def literalString : Reader String := named "literal string" do
  char '\''
  let cs ← takeWhile isLiteralChar
  commit (char '\'')
  return String.ofList cs

/-- A backslash at the end of a line, with all blanks and line ends behind it. -/
def continuation : Reader Unit := do
  char '\\'
  spaces
  newline
  let _ ← many (orElse newline (do let _ ← takeWhile1 isSpace))

def ahead (p : Reader Unit) : Reader Unit := fun cs =>
  match p cs with
  | .ok _ => .ok ((), cs)
  | .error e => .error e

def quotesBefore (quote : Char) (next : Reader Unit) : Reader (List Char) :=
  orElse
    (do word [quote, quote]; ahead next; return [quote, quote])
    (do char quote; ahead next; return [quote])

/-- The content of a text between triple quotes. One or two quotes may stand anywhere in it. -/
def longBody (quote : Char) (content : Reader (List Char)) : Reader (List Char) := do
  let other : Reader Unit := do
    let _ ← satisfy (· ≠ quote)
  let start ← many content
  let middle ← many do
    let quotes ← quotesBefore quote other
    let first ← content
    return quotes ++ first ++ (← many content).flatten
  let stop ← optional (quotesBefore quote (word [quote, quote, quote]))
  return start.flatten ++ middle.flatten ++ stop.getD []

def longBasicString : Reader String := named "multiline basic string" do
  word ['"', '"', '"']
  let _ ← optional newline
  let content : Reader (List Char) :=
    orElse (takeWhile1 isBasicChar) <| orElse (do continuation; return []) <|
      orElse ((fun c => [c]) <$> escaped) (do newline; return ['\n'])
  let body ← commit (longBody '"' content)
  commit (word ['"', '"', '"'])
  return String.ofList body

def longLiteralString : Reader String := named "multiline literal string" do
  word ['\'', '\'', '\'']
  let _ ← optional newline
  let content : Reader (List Char) :=
    orElse (takeWhile1 isLiteralChar) (do newline; return ['\n'])
  let body ← commit (longBody '\'' content)
  commit (word ['\'', '\'', '\''])
  return String.ofList body

def string : Reader String :=
  orElse longBasicString <| orElse basicString <| orElse longLiteralString literalString

end Toml
end CastLint
