import CastLint.Syntax.Fault
import CastLint.Syntax.Numeral

/-! The words, marks and literals of a program text. -/

namespace CastLint
namespace Syntax

inductive BinaryOp where
  | nullish | or | and | bitOr | bitXor | bitAnd
  | eq | ne | strictEq | strictNe
  | lt | gt | le | ge | isIn | instanceOf
  | shl | shr | ushr | add | sub | mul | div | mod | exp
deriving DecidableEq, Repr, Inhabited

namespace BinaryOp

def text : BinaryOp → String
  | nullish => "??" | or => "||" | and => "&&" | bitOr => "|" | bitXor => "^" | bitAnd => "&"
  | eq => "==" | ne => "!=" | strictEq => "===" | strictNe => "!=="
  | lt => "<" | gt => ">" | le => "<=" | ge => ">=" | isIn => "in" | instanceOf => "instanceof"
  | shl => "<<" | shr => ">>" | ushr => ">>>" | add => "+" | sub => "-" | mul => "*"
  | div => "/" | mod => "%" | exp => "**"

/-- A tighter operator has a larger number. -/
def precedence : BinaryOp → Nat
  | nullish => 1 | or => 1 | and => 2 | bitOr => 3 | bitXor => 4 | bitAnd => 5
  | eq => 6 | ne => 6 | strictEq => 6 | strictNe => 6
  | lt => 7 | gt => 7 | le => 7 | ge => 7 | isIn => 7 | instanceOf => 7
  | shl => 8 | shr => 8 | ushr => 8 | add => 9 | sub => 9 | mul => 10 | div => 10 | mod => 10
  | exp => 11

end BinaryOp

/-- A punctuation mark. `assign none` is the plain equals sign. -/
inductive Mark where
  | lparen | rparen | lbracket | rbracket | lbrace | rbrace
  | semi | comma | dot | ellipsis | question | colon | arrow | atSign | hash
  | bang | tilde | incr | decr | closeTag
  | binary (op : BinaryOp)
  | assign (op : Option BinaryOp)
deriving DecidableEq, Repr, Inhabited

def Mark.text : Mark → String
  | lparen => "(" | rparen => ")" | lbracket => "[" | rbracket => "]"
  | lbrace => "\x7b" | rbrace => "\x7d"
  | semi => ";" | comma => "," | dot => "." | ellipsis => "..." | question => "?"
  | colon => ":" | arrow => "=>" | atSign => "@" | hash => "#"
  | bang => "!" | tilde => "~" | incr => "++" | decr => "--" | closeTag => "</"
  | binary op => op.text
  | assign none => "="
  | assign (some op) => op.text ++ "="

/-- A unit of a program text. A word is not `plain` if its first letter is escaped, and then it is
no keyword whatever it spells. `template` is a chunk of a template literal: it is the last one when
`last` holds, and a substitution follows otherwise; its escapes may be wrong. A text that is no
token is `bad`. -/
inductive Token where
  | word (name : String) (plain : Bool)
  | mark (m : Mark)
  | number (raw : String)
  | bigint (raw : String)
  | string (value raw : String)
  | regex (pattern flags : String)
  | template (raw : String) (last : Bool) (wrong : Option Issue)
  | markupText (raw : String)
  | markupName (name : String)
  | shebang
  | bad (issue : Issue)
  | eof
deriving DecidableEq, Repr, Inhabited

/-- Words that have a meaning somewhere in the grammar though they can name things. -/
def grammarWords : List String :=
  ["abstract", "accessor", "any", "as", "assert", "asserts", "async", "await", "bigint", "boolean",
    "constructor", "declare", "enum", "from", "get", "global", "implements", "infer", "interface",
    "intrinsic", "is", "keyof", "let", "meta", "module", "namespace", "never", "number", "object",
    "of", "out", "override", "package", "private", "protected", "public", "readonly", "require",
    "satisfies", "set", "static", "string", "symbol", "target", "type", "undefined", "unique",
    "unknown", "using", "yield"]

/-- Words that can never name anything. -/
def keywords : List String :=
  ["null", "true", "false", "break", "case", "catch", "continue", "debugger", "default", "do",
    "else", "finally", "for", "function", "if", "return", "switch", "throw", "try", "var", "with",
    "while", "const", "new", "this", "super", "class", "extends", "export", "import", "in",
    "instanceof", "typeof", "void", "delete", "enum"]

def isKeyword (w : String) : Bool := keywords.contains w

/-- Words that cannot name anything in strict code only. -/
def strictWords : List String :=
  ["let", "static", "implements", "package", "protected", "interface", "private", "public",
    "yield"]

namespace Token

def text : Token → String
  | word name _ => name
  | mark m => m.text
  | number raw => "numeric literal (" ++ (numeralValue raw).shortText ++ ", " ++ raw ++ ")"
  | bigint raw => "bigint literal (" ++ toString (integerValue raw) ++ ", " ++ raw ++ ")"
  | string value raw => "string literal (" ++ value ++ ", " ++ raw ++ ")"
  | regex pattern flags => "regexp literal (" ++ pattern ++ ", " ++ flags ++ ")"
  | template raw _ _ => raw
  | markupText raw => "jsx text (" ++ raw ++ ")"
  | markupName name => "jsx name (" ++ name ++ ")"
  | shebang => "#!"
  | bad issue =>
    "<lexing error: Error \x7b error: (" ++ toString (issue.span.start + 1) ++ ".." ++
      toString (issue.span.stop + 1) ++ ", " ++ issue.fault.cause ++ ") \x7d>"
  | eof => "<eof>"

def className : Token → String
  | word name plain =>
    if plain && (isKeyword name || grammarWords.contains name) then name else "<identifier>"
  | number _ => "<number literal>"
  | bigint _ => "<bigint literal>"
  | string _ _ => "<string literal>"
  | regex _ _ => "<regexp literal>"
  | template _ true _ => "<no substitution template literal>"
  | template _ false _ => "<template head>"
  | bad _ => "<lexing error>"
  | t => t.text

def isWord : Token → Bool
  | word _ _ => true
  | _ => false

def isThe (w : String) : Token → Bool
  | word name plain => plain && name == w
  | _ => false

def isKeyword : Token → Bool
  | word name plain => plain && Syntax.isKeyword name
  | _ => false

def binaryOp? : Token → Option BinaryOp
  | mark (.binary op) => some op
  | _ => none

def isBinaryMark (t : Token) : Bool := t.binaryOp?.isSome

end Token

end Syntax
end CastLint
