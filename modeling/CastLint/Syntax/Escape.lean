import CastLint.Syntax.Numeral
import CastLint.Syntax.Fault
import CastLint.Text.Bytes

/-! Digits with separators between them, and the escapes of strings, templates and words. Every
reader takes the characters that are left together with the byte offset at which they start. -/

namespace CastLint
namespace Syntax

def isLineBreak (c : Char) : Bool :=
  c = '\n' || c = '\r' || c = '\u2028' || c = '\u2029'

/-! ### Digits -/

structure Digits where
  digits : List Char
  taken : List Char
  rest : List Char
  issues : List Issue := []
deriving Inhabited

/-- At most `left` digits of a radix from `offset` on, in a run that starts at `start`. A separator
that no digit follows is reported where the run starts, and skipped like any other. -/
def digitRun (radix start : Nat) : (left offset : Nat) → List Char → Digits
  | 0, _, cs => ⟨[], [], cs, []⟩
  | _ + 1, _, [] => ⟨[], [], [], []⟩
  | left + 1, offset, c :: cs =>
    if c = '_' then
      let run := digitRun radix start (left + 1) (offset + 1) cs
      let issues : List Issue :=
        if cs.head?.any (isDigitOf radix) then [] else [⟨⟨start, offset⟩, .separatorMisplaced⟩]
      { run with taken := c :: run.taken, issues := issues ++ run.issues }
    else if isDigitOf radix c then
      let run := digitRun radix start left (offset + 1) cs
      { run with digits := c :: run.digits, taken := c :: run.taken }
    else ⟨[], [], c :: cs, []⟩

def allDigits (radix offset : Nat) (cs : List Char) : Digits :=
  digitRun radix offset (cs.length + 1) offset cs

/-! ### Escapes -/

/-- What an escape behind its backslash stands for, what it takes, and what follows. An escape that
is none has a mistake instead of a meaning, and takes what was read of it. -/
structure Escape where
  value : List Char
  taken : List Char
  rest : List Char
  issues : List Issue := []
  wrong : Option Issue := none
deriving Inhabited

/-- The character of a code point. One half of a pair stands for no character, so that its spelling
remains. -/
def pointText (n : Nat) (spelling : List Char) : List Char :=
  if 0xd800 ≤ n && n ≤ 0xdfff then '\\' :: spelling else [Char.ofNat n]

/-- An escape whose `u` is at `offset`: four digits, or any in braces. -/
def pointEscape (offset : Nat) (cs : List Char) : Escape :=
  match cs with
  | '\x7b' :: cs =>
    let run := allDigits 16 (offset + 2) cs
    let taken := 'u' :: '\x7b' :: run.taken
    let stop := offset + Text.byteLength taken
    let n := digitsValue 16 run.digits
    if run.digits.isEmpty || 0x10ffff < n then
      ⟨[], taken, run.rest, run.issues,
        some ⟨⟨stop, stop⟩, .badEscape "1-6 hex characters in the range 0 to 10FFFF."⟩⟩
    else match run.rest with
      | '\x7d' :: rest =>
        ⟨pointText n (taken ++ ['\x7d']), taken ++ ['\x7d'], rest, run.issues, none⟩
      | rest => ⟨[], taken, rest, run.issues, some ⟨⟨offset + 2, stop⟩, .unicodeEscapeMalformed⟩⟩
  | _ =>
    let run := digitRun 16 (offset + 1) 4 (offset + 1) cs
    let taken := 'u' :: run.taken
    let stop := offset + Text.byteLength taken
    if run.digits.length < 4 then
      ⟨[], taken, run.rest, run.issues, some ⟨⟨stop, stop⟩, .badEscape "4 hex characters"⟩⟩
    else ⟨pointText (digitsValue 16 run.digits) taken, taken, run.rest, run.issues, none⟩

def octalDigits (value : Nat) : (left : Nat) → List Char → List Char × List Char
  | 0, cs => ([], cs)
  | _ + 1, [] => ([], [])
  | left + 1, c :: cs =>
    let next := 8 * value + (c.toNat - 48)
    if isDigitOf 8 c && next < 256 then
      let (digits, rest) := octalDigits next left cs
      (c :: digits, rest)
    else ([], c :: cs)

/-- An escape by an octal code, whose first digit is `d`. A template cannot have one. -/
def octalEscape (inTemplate : Bool) (offset : Nat) (d : Char) (cs : List Char) : Escape :=
  let issue : Issue := ⟨⟨offset, offset + 2⟩, .legacyOctal⟩
  if inTemplate then ⟨[], [d], cs, [], some issue⟩
  else
    let (digits, rest) := octalDigits (d.toNat - 48) 2 cs
    ⟨[Char.ofNat (digitsValue 8 (d :: digits))], d :: digits, rest, [issue], none⟩

def letterEscape (c : Char) : Char :=
  if c = 'n' then '\n'
  else if c = 't' then '\t'
  else if c = 'r' then '\r'
  else if c = 'b' then '\x08'
  else if c = 'f' then '\x0c'
  else if c = 'v' then '\x0b'
  else c

def readEscape (inTemplate : Bool) (offset : Nat) (cs : List Char) : Escape :=
  match cs with
  | [] => ⟨[], [], [], [], some ⟨⟨offset, offset⟩, .unfinishedEscape⟩⟩
  | '\r' :: '\n' :: rest => ⟨[], ['\r', '\n'], rest, [], none⟩
  | 'x' :: rest =>
    let run := digitRun 16 (offset + 2) 2 (offset + 2) rest
    let taken := 'x' :: run.taken
    if run.digits.length < 2 then
      ⟨[], taken, run.rest, run.issues,
        some ⟨⟨offset, offset + 1 + Text.byteLength taken⟩, .badEscape "2 hex characters"⟩⟩
    else ⟨[Char.ofNat (digitsValue 16 run.digits)], taken, run.rest, run.issues, none⟩
  | 'u' :: rest =>
    let escape := pointEscape (offset + 1) rest
    let stop := offset + 1 + Text.byteLength escape.taken
    { escape with wrong := escape.wrong.map fun issue => ⟨⟨offset, stop⟩, issue.fault⟩ }
  | d :: rest =>
    if isLineBreak d then ⟨[], [d], rest, [], none⟩
    else if isDigitOf 8 d && !(d = '0' && !(rest.head?.any (isDigitOf 8))) then
      octalEscape inTemplate offset d rest
    else if d = '0' then ⟨['\x00'], [d], rest, [], none⟩
    else ⟨[letterEscape d], [d], rest, [], none⟩

end Syntax
end CastLint
