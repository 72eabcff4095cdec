import CastLint.Toml.Draft
import CastLint.Toml.Numbers

/-! Reading a whole TOML document. -/

namespace CastLint
namespace Toml

open Reader

/-- Arrays and tables between braces nest, and keys have parts, up to this many times and no
further. -/
def depthLimit : Nat := 79

def isBareKeyChar (c : Char) : Bool := c.isAlphanum || c = '_' || c = '-'

def simpleKey : Reader String := do
  match ← peek? with
  | some '"' => basicString
  | some '\'' => literalString
  | _ => return String.ofList (← takeWhile1 isBareKeyChar)

def key : Reader (List String) := do
  let part : Reader String := do
    spaces
    let k ← simpleKey
    spaces
    return k
  let parts ← named "key" (separated part (char '.'))
  if depthLimit < parts.length then decline .tooDeep
  return parts

def equals : Reader Unit := expecting [backquoted ".", backquoted "="] (char '=')

/-- What may follow a value or a header on its line, with what should. -/
def statementEnd : Reader Unit := expecting ["newline", backquoted "#"] lineRest

def accept {α : Type} : Except Cause α → Reader α
  | .ok a => pure a
  | .error cause => decline cause

def arrayOf (item : Reader Value) : Reader Value := do
  char '['
  let padded : Reader Value := do
    gap
    let v ← item
    gap
    return v
  let items ← commit do
    if (← peek?) = some ']' then return []
    let items := (← optional (separated padded (char ','))).getD []
    unless items.isEmpty do
      let _ ← optional (char ',')
    gap
    return items
  named "array" (expecting [backquoted "]"] (commit (char ']')))
  return .array items

def tableOf (item : Reader Value) : Reader Value := do
  char '\x7b'
  let pair : Reader (List String × String × Value) := do
    let path ← key
    commit do
      equals
      spaces
      let v ← item
      spaces
      return (path.dropLast, path.getLast?.getD "", v)
  let entries ← commit do
    let pairs := (← optional (separated pair (char ','))).getD []
    spaces
    accept (inlineTable pairs)
  named "inline table" (expecting [backquoted "\x7d"] (commit (char '\x7d')))
  return .table .inline entries

def keyword (w : String) (v : Value) : Reader Value := do
  commit (word w.toList)
  return v

/-- What starts with a letter is taken for a text without quotes. -/
def orText (p : Reader Value) : Reader Value :=
  named "string" (expecting [backquoted "\"", backquoted "'"] p)

/-- What stands behind an equals sign. What holds other values is read by `nested`. -/
def valueWith (nested : (Reader Value → Reader Value) → Reader Value) : Reader Value := do
  match ← peek? with
  | none => fail
  | some '"' | some '\'' => .string <$> string
  | some '[' => nested arrayOf
  | some '\x7b' => nested tableOf
  | some '_' => expecting ["leading digit"] (.integer <$> integer)
  | some '.' => expecting ["leading digit"] (.float <$> float)
  | some 't' => orText (keyword "true" (.boolean true))
  | some 'f' => orText (keyword "false" (.boolean false))
  | some 'i' => orText (.float <$> infinity)
  | some 'n' => orText (.float <$> notANumber)
  | some c =>
    if c.isDigit || c = '+' || c = '-' then
      orElse (.datetime <$> datetime) (orElse (.float <$> float) (.integer <$> integer))
    else orText fail

def value : (depth : Nat) → Reader Value
  | 0 => valueWith fun _ => refuse .tooDeep
  | depth + 1 => valueWith fun p => p (value depth)

def pair (draft : Draft) : Reader Draft := do
  let path ← key
  let v ← commit do
    equals
    spaces
    let v ← value depthLimit
    statementEnd
    return v
  accept (draft.add path.dropLast (path.getLast?.getD "") v)

def header (draft : Draft) : Reader Draft := named "table header" do
  match (← rest).take 2 with
  | ['[', '['] =>
    word ['[', '[']
    let path ← commit key
    expecting [backquoted ".", backquoted "]]"] (commit (word [']', ']']))
    commit statementEnd
    accept (draft.openItem path)
  | ['[', _] =>
    char '['
    let path ← commit key
    expecting [backquoted ".", backquoted "]"] (commit (char ']'))
    commit statementEnd
    accept (draft.openTable path)
  | _ => fail

def statement (draft : Draft) : Reader Draft := do
  match ← peek? with
  | none => fail
  | some '#' =>
    commit do
      comment
      lineEnd
    return draft
  | some '[' => commit (header draft)
  | some '\n' | some '\r' =>
    newline
    return draft
  | some _ => commit (pair draft)

def statements : (count : Nat) → Draft → Reader Draft
  | 0, draft => pure draft
  | count + 1, draft => do
    let next ← optional do
      let draft ← statement draft
      spaces
      return draft
    match next with
    | some draft => statements count draft
    | none => return draft

def document : Reader Entries := do
  let _ ← optional (char '\ufeff')
  spaces
  let draft ← statements ((← rest).length + 1) {}
  atEnd
  accept draft.close

def read (text : String) : Except Failure Entries :=
  match document text.toList with
  | .ok (entries, _) => .ok entries
  | .error e => .error e

end Toml
end CastLint
