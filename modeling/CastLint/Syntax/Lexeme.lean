import CastLint.Syntax.Escape
import CastLint.Syntax.Token
import CastLint.Text.Blank
import CastLint.Text.Letter

/-! Reading one token at a time. Every reader takes the characters that are left together with the
byte offset at which they start, and hands back what is left behind the token. -/

namespace CastLint
namespace Syntax

/-- A place in a text: what is left of it, and the bytes in front of that. -/
structure Cursor where
  rest : List Char
  offset : Nat
deriving DecidableEq, Repr, Inhabited

def Cursor.after (c : Cursor) (cs rest : List Char) : Cursor :=
  ⟨rest, c.offset + Text.byteLength cs⟩

/-- A token, where it is, whether a line ends in front of it and what follows it. Reading can find
mistakes that leave a usable token; they come along in `issues`. -/
structure Lexeme where
  token : Token
  span : Span
  newline : Bool
  next : Cursor
  issues : List Issue
deriving Repr, Inhabited

def isSpace (c : Char) : Bool := Text.isBlank c || c = '\ufeff'

def isNameStart (c : Char) : Bool :=
  if c.toNat < 128 then c.isAlpha || c = '$' || c = '_' else Text.isLetter c

def isNamePart (c : Char) : Bool :=
  if c.toNat < 128 then c.isAlphanum || c = '$' || c = '_' else Text.isLetter c || Text.isMark c

/-! ### Space and comments -/

inductive Gap where
  | space | line | block

/-- What follows space and comments. A token behind a comment in the style of markup, or behind the
line of a merge conflict, starts where that does. -/
structure Trivia where
  rest : List Char
  offset : Nat
  newline : Bool
  issues : List Issue
  start : Nat

/-- What is wrong if a merge left a marker at the front of a line. Between types, angle brackets
stand alone and make none. -/
def isConflictMarker (inType : Bool) (cs : List Char) : Bool :=
  let starts (marker : String) : Bool := marker.toList.isPrefixOf cs
  starts "=======" || (!inType && (starts "<<<<<<< " || starts ">>>>>>> "))

def Trivia.behind (gap : Trivia) (offset size : Nat) (fault : Fault) : Trivia :=
  { gap with issues := ⟨⟨offset, offset + size⟩, fault⟩ :: gap.issues, start := offset }

/-- Skips space and comments. `newline` tells whether a line has ended already. A comment in the
style of markup and the line of a merge conflict are skipped too, and reported. -/
def skipTrivia (inType : Bool) : Gap → Bool → Nat → List Char → Trivia
  | .block, newline, offset, [] =>
    ⟨[], offset, newline, [⟨⟨offset, offset⟩, .unterminatedComment⟩], offset⟩
  | _, newline, offset, [] => ⟨[], offset, newline, [], offset⟩
  | .space, newline, offset, '/' :: '/' :: rest => skipTrivia inType .line newline (offset + 2) rest
  | .space, newline, offset, '/' :: '*' :: rest => skipTrivia inType .block newline (offset + 2) rest
  | .space, newline, offset, c :: rest =>
    if isLineBreak c then skipTrivia inType .space true (offset + c.utf8Size) rest
    else if isSpace c then skipTrivia inType .space newline (offset + c.utf8Size) rest
    else if !inType && "<!--".toList.isPrefixOf (c :: rest) then
      (skipTrivia inType .line newline (offset + 1) rest).behind offset 4 .legacyComment
    else if newline && "-->".toList.isPrefixOf (c :: rest) then
      (skipTrivia inType .line newline (offset + 1) rest).behind offset 3 .legacyComment
    else if newline && isConflictMarker inType (c :: rest) then
      (skipTrivia inType .line newline (offset + 1) rest).behind offset 7 .conflictMarker
    else ⟨c :: rest, offset, newline, [], offset⟩
  | .line, newline, offset, c :: rest =>
    if isLineBreak c then skipTrivia inType .space true (offset + c.utf8Size) rest
    else skipTrivia inType .line newline (offset + c.utf8Size) rest
  | .block, newline, offset, '*' :: '/' :: rest =>
    skipTrivia inType .space newline (offset + 2) rest
  | .block, newline, offset, c :: rest =>
    skipTrivia inType .block (newline || isLineBreak c) (offset + c.utf8Size) rest

/-! ### Words -/

/-- The letters of a word, whether one of them was escaped, what it takes and what follows. An
escape that is none ends the word and spoils it. -/
structure Word where
  name : List Char
  escaped : Bool
  taken : List Char
  rest : List Char
  issues : List Issue := []
  wrong : Option Issue := none
deriving Inhabited

def Word.behind (w : Word) (name taken : List Char) (escaped : Bool) (issues : List Issue) : Word :=
  { w with
    name := name ++ w.name, escaped := escaped || w.escaped, taken := taken ++ w.taken
    issues := issues ++ w.issues }

def scanWord : (fuel offset : Nat) → List Char → Word
  | 0, _, cs => ⟨[], false, [], cs, [], none⟩
  | _ + 1, _, [] => ⟨[], false, [], [], [], none⟩
  | fuel + 1, offset, '\\' :: 'u' :: cs =>
    let escape := pointEscape (offset + 1) cs
    let taken := '\\' :: escape.taken
    let stop := offset + Text.byteLength taken
    match escape.wrong with
    | some issue => ⟨[], true, taken, escape.rest, escape.issues, some issue⟩
    | none =>
      let issues : List Issue := if escape.value.head?.any isNamePart then []
        else [⟨⟨offset, stop⟩, .invalidNameChar⟩]
      (scanWord fuel stop escape.rest).behind escape.value taken true (escape.issues ++ issues)
  | fuel + 1, offset, c :: cs =>
    if c = '\\' then
      ⟨[], true, [c], cs, [], some ⟨⟨offset, offset⟩, .unicodeEscapeExpected⟩⟩
    else if isNamePart c then
      (scanWord fuel (offset + c.utf8Size) cs).behind [c] [c] false []
    else ⟨[], false, [], c :: cs, [], none⟩

/-! ### Marks -/

/-- The mark at the front of a text and how many characters it has. Between types, angle brackets
stand alone. -/
def scanMark (inType : Bool) : List Char → Option (Mark × Nat)
  | '(' :: _ => some (.lparen, 1)
  | ')' :: _ => some (.rparen, 1)
  | '[' :: _ => some (.lbracket, 1)
  | ']' :: _ => some (.rbracket, 1)
  | '\x7b' :: _ => some (.lbrace, 1)
  | '\x7d' :: _ => some (.rbrace, 1)
  | ';' :: _ => some (.semi, 1)
  | ',' :: _ => some (.comma, 1)
  | ':' :: _ => some (.colon, 1)
  | '@' :: _ => some (.atSign, 1)
  | '#' :: _ => some (.hash, 1)
  | '~' :: _ => some (.tilde, 1)
  | '.' :: '.' :: '.' :: _ => some (.ellipsis, 3)
  | '.' :: _ => some (.dot, 1)
  | '?' :: '?' :: '=' :: _ => some (.assign (some .nullish), 3)
  | '?' :: '?' :: _ => some (.binary .nullish, 2)
  | '?' :: _ => some (.question, 1)
  | '=' :: '=' :: '=' :: _ => some (.binary .strictEq, 3)
  | '=' :: '=' :: _ => some (.binary .eq, 2)
  | '=' :: '>' :: _ => some (.arrow, 2)
  | '=' :: _ => some (.assign none, 1)
  | '!' :: '=' :: '=' :: _ => some (.binary .strictNe, 3)
  | '!' :: '=' :: _ => some (.binary .ne, 2)
  | '!' :: _ => some (.bang, 1)
  | '+' :: '+' :: _ => some (.incr, 2)
  | '+' :: '=' :: _ => some (.assign (some .add), 2)
  | '+' :: _ => some (.binary .add, 1)
  | '-' :: '-' :: _ => some (.decr, 2)
  | '-' :: '=' :: _ => some (.assign (some .sub), 2)
  | '-' :: _ => some (.binary .sub, 1)
  | '*' :: '*' :: '=' :: _ => some (.assign (some .exp), 3)
  | '*' :: '*' :: _ => some (.binary .exp, 2)
  | '*' :: '=' :: _ => some (.assign (some .mul), 2)
  | '*' :: _ => some (.binary .mul, 1)
  | '/' :: '=' :: _ => some (.assign (some .div), 2)
  | '/' :: _ => some (.binary .div, 1)
  | '%' :: '=' :: _ => some (.assign (some .mod), 2)
  | '%' :: _ => some (.binary .mod, 1)
  | '&' :: '&' :: '=' :: _ => some (.assign (some .and), 3)
  | '&' :: '&' :: _ => some (.binary .and, 2)
  | '&' :: '=' :: _ => some (.assign (some .bitAnd), 2)
  | '&' :: _ => some (.binary .bitAnd, 1)
  | '|' :: '|' :: '=' :: _ => some (.assign (some .or), 3)
  | '|' :: '|' :: _ => some (.binary .or, 2)
  | '|' :: '=' :: _ => some (.assign (some .bitOr), 2)
  | '|' :: _ => some (.binary .bitOr, 1)
  | '^' :: '=' :: _ => some (.assign (some .bitXor), 2)
  | '^' :: _ => some (.binary .bitXor, 1)
  | '<' :: rest =>
    if inType then some (.binary .lt, 1)
    else match rest with
      | '<' :: '=' :: _ => some (.assign (some .shl), 3)
      | '<' :: _ => some (.binary .shl, 2)
      | '=' :: _ => some (.binary .le, 2)
      | _ => some (.binary .lt, 1)
  | '>' :: rest =>
    if inType then some (.binary .gt, 1)
    else match rest with
      | '>' :: '>' :: '=' :: _ => some (.assign (some .ushr), 4)
      | '>' :: '>' :: _ => some (.binary .ushr, 3)
      | '>' :: '=' :: _ => some (.assign (some .shr), 3)
      | '>' :: _ => some (.binary .shr, 2)
      | '=' :: _ => some (.binary .ge, 2)
      | _ => some (.binary .gt, 1)
  | _ => none

/-! ### Numbers -/

/-- What a literal reader hands back: the token, how much it took, and mistakes that do not spoil
it. -/
structure Scan where
  token : Token
  taken : List Char
  rest : List Char
  issues : List Issue := []

def endNumber (offset : Nat) (taken rest : List Char) (issues : List Issue) : Scan :=
  let stop := offset + Text.byteLength taken
  if rest.head?.any isNameStart then ⟨.bad ⟨⟨stop, stop⟩, .nameAfterNumber⟩, taken, rest, issues⟩
  else ⟨.number (String.ofList taken), taken, rest, issues⟩

def someDigits (radix offset : Nat) (lead cs : List Char) (issues : List Issue)
    (next : List Char → List Char → List Issue → Scan) : Scan :=
  let start := offset + Text.byteLength lead
  let run := allDigits radix start cs
  let taken := lead ++ run.taken
  let issues := issues ++ run.issues
  if run.digits.isEmpty then
    ⟨.bad ⟨⟨start, offset + Text.byteLength taken⟩, .expectedDigit radix⟩, taken, run.rest, issues⟩
  else next taken run.rest issues

/-- A numeral for an integer of any size ends in a letter, which anything can follow. -/
def endInteger (taken rest : List Char) (issues : List Issue) : Scan :=
  ⟨.bigint (String.ofList (taken ++ ['n'])), taken ++ ['n'], rest, issues⟩

def radixNumber (offset radix : Nat) (lead cs : List Char) : Scan :=
  someDigits radix offset lead cs [] fun taken rest issues =>
    match rest with
    | 'n' :: rest => endInteger taken rest issues
    | _ => endNumber offset taken rest issues

def scanExponent (offset : Nat) (taken cs : List Char) (issues : List Issue) : Scan :=
  match cs with
  | e :: rest =>
    if e = 'e' || e = 'E' then
      let next := endNumber offset
      match rest with
      | [] =>
        let stop := offset + Text.byteLength (taken ++ [e])
        ⟨.bad ⟨⟨stop, stop⟩, .expectedExponent⟩, taken ++ [e], [], issues⟩
      | '+' :: rest => someDigits 10 offset (taken ++ [e, '+']) rest issues next
      | '-' :: rest => someDigits 10 offset (taken ++ [e, '-']) rest issues next
      | rest => someDigits 10 offset (taken ++ [e]) rest issues next
    else endNumber offset taken cs issues
  | [] => endNumber offset taken cs issues

def scanFraction (offset : Nat) (taken cs : List Char) (issues : List Issue) : Scan :=
  match cs with
  | '.' :: cs =>
    let run := allDigits 10 (offset + Text.byteLength taken + 1) cs
    scanExponent offset (taken ++ '.' :: run.taken) run.rest (issues ++ run.issues)
  | _ => scanExponent offset taken cs issues

/-- A number at the front of a text that starts with a digit. A zero in front of other digits makes
it octal if they can be, without a fraction. -/
def wholeNumber (typescript : Bool) (offset : Nat) (cs : List Char) : Scan :=
  let run := allDigits 10 offset cs
  let zeroLed := run.digits.head? = some '0' && 1 < run.taken.length
  let here : Span := ⟨offset, offset + Text.byteLength run.taken⟩
  match zeroLed, run.rest with
  | false, 'n' :: rest => endInteger run.taken rest run.issues
  | false, rest => scanFraction offset run.taken rest run.issues
  | true, rest =>
    if run.digits.all (isDigitOf 8) then
      let scan := endNumber offset run.taken rest run.issues
      match scan.token with
      | .bad _ => scan
      | _ =>
        let octal : List Issue := if typescript then [⟨here, .octalNumeral⟩] else []
        { scan with issues := scan.issues ++ octal ++ [⟨here, .legacyOctal⟩] }
    else scanFraction offset run.taken rest (run.issues ++ [⟨here, .legacyDecimal⟩])

def scanNumber (typescript : Bool) (offset : Nat) (cs : List Char) : Scan :=
  match cs with
  | '0' :: c :: rest =>
    if c = 'x' || c = 'X' then radixNumber offset 16 ['0', c] rest
    else if c = 'o' || c = 'O' then radixNumber offset 8 ['0', c] rest
    else if c = 'b' || c = 'B' then radixNumber offset 2 ['0', c] rest
    else wholeNumber typescript offset cs
  | _ => wholeNumber typescript offset cs

/-! ### Strings, templates and patterns -/

def stringScan (value taken rest : List Char) (issues : List Issue) : Scan :=
  ⟨.string (String.ofList value.reverse) (String.ofList taken.reverse), taken.reverse, rest, issues⟩

/-- The rest of a string that starts at `start`: `value` and `taken` are what was read of it, in
reverse. A string that its line does not close is reported and ends with the line; a wrong escape
leaves no string. -/
def scanString (start : Nat) (quote : Char) :
    (fuel offset : Nat) → (value taken rest : List Char) → List Issue → Scan
  | 0, _, value, taken, rest, issues => stringScan value taken rest issues
  | _ + 1, offset, value, taken, [], issues =>
    stringScan value taken [] (issues ++ [⟨⟨start, offset⟩, .unterminatedString⟩])
  | fuel + 1, offset, value, taken, c :: rest, issues =>
    if c = quote then stringScan value (c :: taken) rest issues
    else if c = '\n' || c = '\r' then
      stringScan value taken (c :: rest) (issues ++ [⟨⟨start, offset⟩, .unterminatedString⟩])
    else if c = '\\' then
      let escape := readEscape false offset rest
      let taken := escape.taken.reverse ++ c :: taken
      let issues := issues ++ escape.issues
      match escape.wrong with
      | some issue => ⟨.bad issue, taken.reverse, escape.rest, issues⟩
      | none =>
        scanString start quote fuel (offset + 1 + Text.byteLength escape.taken)
          (escape.value.reverse ++ value) taken escape.rest issues
    else scanString start quote fuel (offset + c.utf8Size) (c :: value) (c :: taken) rest issues

/-- The rest of a template chunk: `text` is what was read of it, in reverse, and `wrong` the last
wrong escape in it. A chunk ends at the closing mark or at a substitution. -/
def scanTemplate (start : Nat) (lead : List Char) :
    (fuel offset : Nat) → (text rest : List Char) → Option Issue → List Issue → Scan
  | 0, _, text, rest, _, issues =>
    ⟨.template (String.ofList text.reverse) true none, lead ++ text.reverse, rest, issues⟩
  | _ + 1, offset, text, [], _, issues =>
    ⟨.bad ⟨⟨start, offset⟩, .unterminatedTemplate⟩, lead ++ text.reverse, [], issues⟩
  | fuel + 1, offset, text, c :: rest, wrong, issues =>
    let raw := String.ofList text.reverse
    if c = '\x60' then
      ⟨.template raw true wrong, lead ++ text.reverse ++ [c], rest, issues⟩
    else if c = '$' && rest.head? = some '\x7b' then
      ⟨.template raw false wrong, lead ++ text.reverse ++ [c, '\x7b'], rest.drop 1, issues⟩
    else if c = '\\' then
      let escape := readEscape true offset rest
      scanTemplate start lead fuel (offset + 1 + Text.byteLength escape.taken)
        (escape.taken.reverse ++ c :: text) escape.rest (escape.wrong <|> wrong)
        (issues ++ escape.issues)
    else scanTemplate start lead fuel (offset + c.utf8Size) (c :: text) rest wrong issues

def templateToken (offset : Nat) (lead rest : List Char) : Scan :=
  scanTemplate offset lead (rest.length + 1) (offset + Text.byteLength lead) [] rest none []

def scanPattern : Bool → Bool → List Char → List Char × Option (List Char)
  | _, _, [] => ([], none)
  | escaped, inClass, c :: rest =>
    if isLineBreak c then ([], none)
    else if escaped then
      let (text, left) := scanPattern false inClass rest
      (c :: text, left)
    else if c = '/' && !inClass then ([], some rest)
    else
      let inClass := if c = '[' then true else if c = ']' then false else inClass
      let (text, left) := scanPattern (c = '\\') inClass rest
      (c :: text, left)

/-! ### Markup -/

def scanMarkupText : Nat → List Char → List Char × List Char × List Issue
  | _, [] => ([], [], [])
  | offset, c :: rest =>
    if c = '<' || c = '\x7b' then ([], c :: rest, [])
    else
      let (text, left, issues) := scanMarkupText (offset + c.utf8Size) rest
      if c = '>' || c = '\x7d' then
        (c :: text, left, ⟨⟨offset, offset⟩, .looseInMarkup c⟩ :: issues)
      else (c :: text, left, issues)

/-! ### Tokens -/

/-- What the parser tells the reader: whether it stands between types, where angle brackets stand
alone, whether the code is strict, and whether the text has types at all. -/
structure LexMode where
  inType : Bool := false
  strict : Bool := true
  typescript : Bool := false

def Scan.lexeme (s : Scan) (offset : Nat) (newline : Bool) (before : List Issue) : Lexeme :=
  let stop := offset + Text.byteLength s.taken
  ⟨s.token, ⟨offset, stop⟩, newline, ⟨s.rest, stop⟩, before ++ s.issues⟩

def isReserved (w : String) : Bool := isKeyword w || strictWords.contains w || w == "await"

/-- The word at the front of `cs`. A reserved word that starts plainly but goes on with an escape
is no token. -/
def wordToken (strict : Bool) (offset : Nat) (cs : List Char) : Scan :=
  let word := scanWord (cs.length + 1) offset cs
  let name := String.ofList word.name
  let plain := cs.head? ≠ some '\\'
  let reserved := if strict then isReserved name else isKeyword name
  let token : Token := match word.wrong with
    | some issue => .bad issue
    | none =>
      if plain && word.escaped && reserved then
        .bad ⟨⟨offset, offset + Text.byteLength word.taken⟩, .escapedKeyword name⟩
      else .word name plain
  ⟨token, word.taken, word.rest, word.issues⟩

def scanToken (mode : LexMode) (offset : Nat) (cs : List Char) : Scan :=
  match cs with
  | [] => ⟨.eof, [], [], []⟩
  | c :: rest =>
    if isNameStart c || c = '\\' then wordToken mode.strict offset cs
    else if c.isDigit then scanNumber mode.typescript offset cs
    else if c = '"' || c = '\'' then
      scanString offset c (rest.length + 1) (offset + 1) [] [c] rest []
    else if c = '\x60' then templateToken offset ['\x60'] rest
    else if c = '.' && (rest.head?.map Char.isDigit).getD false then scanFraction offset [] cs []
    else match scanMark mode.inType cs with
      | some (mark, size) => ⟨.mark mark, cs.take size, cs.drop size, []⟩
      | none => ⟨.bad ⟨⟨offset, offset⟩, .unexpectedChar c⟩, [c], rest, []⟩

/-- The next token behind a place; `atStart` holds for the first one, which counts as the start of
a line. The end of the text counts as the end of a line. -/
def Cursor.lex (mode : LexMode) (atStart : Bool) (c : Cursor) : Lexeme :=
  let gap := skipTrivia mode.inType .space atStart c.offset c.rest
  let l := (scanToken mode gap.offset gap.rest).lexeme gap.offset gap.newline gap.issues
  { l with span := ⟨gap.start, l.span.stop⟩, newline := l.newline || l.token = .eof }

def Cursor.lexTemplate (c : Cursor) : Lexeme :=
  (templateToken c.offset ['\x7d'] (c.rest.drop 1)).lexeme c.offset false []

def Cursor.lexRegex (c : Cursor) : Lexeme :=
  let (pattern, close) := scanPattern false false (c.rest.drop 1)
  let body := '/' :: pattern
  match close with
  | some left =>
    let start := c.offset + Text.byteLength body + 1
    let flags : Word := if left.head?.any isNameStart then scanWord (left.length + 1) start left
      else ⟨[], false, [], left, [], none⟩
    let token : Token := match flags.wrong with
      | some issue => .bad issue
      | none => .regex (String.ofList pattern) (String.ofList flags.name)
    let scan : Scan := ⟨token, body ++ '/' :: flags.taken, flags.rest, flags.issues⟩
    scan.lexeme c.offset false []
  | none =>
    let stop := c.offset + Text.byteLength body
    ⟨.bad ⟨⟨c.offset, stop⟩, .unterminatedRegex⟩, ⟨c.offset, stop⟩, false,
      ⟨c.rest.drop body.length, stop⟩, []⟩

def Cursor.lexMarkup (c : Cursor) : Lexeme :=
  match c.rest with
  | [] => ⟨.eof, ⟨c.offset, c.offset⟩, false, c, []⟩
  | '<' :: '/' :: rest => ⟨.mark .closeTag, ⟨c.offset, c.offset + 2⟩, false, ⟨rest, c.offset + 2⟩, []⟩
  | '<' :: rest => ⟨.mark (.binary .lt), ⟨c.offset, c.offset + 1⟩, false, ⟨rest, c.offset + 1⟩, []⟩
  | '\x7b' :: rest => ⟨.mark .lbrace, ⟨c.offset, c.offset + 1⟩, false, ⟨rest, c.offset + 1⟩, []⟩
  | cs =>
    let (text, left, issues) := scanMarkupText c.offset cs
    let scan : Scan := ⟨.markupText (String.ofList text), text, left, issues⟩
    scan.lexeme c.offset false []

/-- A string in a tag: it has no escapes and may span lines. -/
def Cursor.lexMarkupString (c : Cursor) : Option Lexeme :=
  let gap := skipTrivia false .space false c.offset c.rest
  match gap.rest with
  | quote :: rest =>
    if quote = '"' || quote = '\'' then
      let text := rest.takeWhile (· ≠ quote)
      match rest.dropWhile (· ≠ quote) with
      | [] =>
        let stop := gap.offset + 1 + Text.byteLength text
        some ⟨.string (String.ofList text) (String.ofList (quote :: text)), ⟨gap.offset, stop⟩,
          gap.newline, ⟨[], stop⟩, [⟨⟨gap.offset, stop⟩, .unterminatedString⟩]⟩
      | _ :: left =>
        let raw := quote :: text ++ [quote]
        let scan : Scan := ⟨.string (String.ofList text) (String.ofList raw), raw, left, []⟩
        some (scan.lexeme gap.offset gap.newline gap.issues)
    else none
  | [] => none

def Lexeme.extendName (l : Lexeme) : Lexeme :=
  match l.token with
  | .word name _ =>
    let part := fun c => isNamePart c || c = '-'
    let more := l.next.rest.takeWhile part
    if more.isEmpty then { l with token := .markupName name }
    else
      let next := l.next.after more (l.next.rest.dropWhile part)
      { l with
        token := .markupName (name ++ String.ofList more)
        span := ⟨l.span.start, next.offset⟩
        next := next }
  | _ => l

end Syntax
end CastLint
