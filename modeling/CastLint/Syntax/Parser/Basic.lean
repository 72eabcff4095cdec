import CastLint.Syntax.Lexeme
import CastLint.Syntax.Node

/-! The state of a parser and its elementary steps. A parser that gives up leaves the state where
it was, so that a caller can look at the token which stopped it. -/

namespace CastLint
namespace Syntax

structure Dialect where
  typescript : Bool := false
  markup : Bool := false
  decorators : Bool := false
deriving DecidableEq, Repr, Inhabited

structure Mode where
  /-- Mistakes are not recorded: the parse is an attempt. -/
  silent : Bool := false
  inType : Bool := false
  /-- `in` is an operator. -/
  operatorIn : Bool := true
  inAsync : Bool := false
  inGenerator : Bool := false
  inFunction : Bool := false
  /-- Inside a function that is no arrow function. -/
  ownScope : Bool := false
  /-- Between the parentheses of parameters. -/
  inParameters : Bool := false
  inStaticBlock : Bool := false
  breakAllowed : Bool := false
  continueAllowed : Bool := false
  inDeclare : Bool := false
  /-- Inside a branch of a conditional expression. -/
  inConditional : Bool := false
  /-- A colon will end the expression. -/
  colonAhead : Bool := false
  inClass : Bool := false
  hasBase : Bool := false
  superAllowed : Bool := false
  /-- Inside the value of a field or a block of a class, where no function has arguments. -/
  inField : Bool := false
  plainTypes : Bool := false
  loopHead : Bool := false
  awaitLoopHead : Bool := false
  /-- Resources that a block gives back at its end may be declared. -/
  usingAllowed : Bool := true
deriving DecidableEq, Repr, Inhabited

structure State where
  dialect : Dialect
  mode : Mode
  /-- The current token. -/
  lexeme : Lexeme
  /-- The span of the token in front of the current one. -/
  before : Span
  /-- The recorded mistakes, the latest first. -/
  issues : List Issue
  /-- The labels of the enclosing statements. -/
  labels : List String
  /-- Where an arrow function may start. -/
  arrowStart : Option Nat
  /-- Commas in front of a closing bracket, by the start of the bracketed text. -/
  trailing : List (Nat × Span)
deriving Inhabited

abbrev Parser := EStateM Issue State

def State.lexing (s : State) : LexMode :=
  { inType := s.mode.inType, typescript := s.dialect.typescript }

def Token.isReference : Token → Bool
  | .word name plain => !(plain && isReserved name)
  | _ => false

namespace Parser

def dialect : Parser Dialect := do return (← get).dialect

def isTypescript : Parser Bool := do return (← get).dialect.typescript

def mode : Parser Mode := do return (← get).mode

def token : Parser Token := do return (← get).lexeme.token

def here : Parser Span := do return (← get).lexeme.span

def position : Parser Nat := do return (← here).start

def before : Parser Span := do return (← get).before

def spanFrom (start : Nat) : Parser Span := do
  let stop := (← before).stop
  return ⟨min start stop, max start stop⟩

def onNewLine : Parser Bool := do return (← get).lexeme.newline

def load (lexeme : Lexeme) : Parser Unit :=
  modify fun s =>
    { s with
      lexeme := lexeme
      issues := if s.mode.silent then s.issues else lexeme.issues.reverse ++ s.issues }

def advance : Parser Unit := do
  let s ← get
  set { s with before := s.lexeme.span }
  load (s.lexeme.next.lex s.lexing false)

def peek : Parser Lexeme := do
  let s ← get
  return s.lexeme.next.lex s.lexing false

def record (issue : Issue) : Parser Unit :=
  modify fun s => if s.mode.silent then s else { s with issues := issue :: s.issues }

/-- Records a mistake and goes on. A token that could not be read is reported first. -/
def emitIssue (issue : Issue) : Parser Unit := do
  if (← mode).silent then return ()
  if let .bad found ← token then
    advance
    record found
  record issue

def emit (span : Span) (fault : Fault) : Parser Unit := emitIssue ⟨span, fault⟩

/-- Gives up because of a mistake. A token that could not be read is reported first. -/
def failAt {α : Type} (span : Span) (fault : Fault) : Parser α := do
  if let .bad found ← token then
    advance
    emitIssue found
  throw ⟨span, fault⟩

def fail {α : Type} (fault : Fault) : Parser α := do
  failAt (← here) fault

def unexpected {α : Type} (wanted : String) : Parser α := do
  fail (.unexpected (← token).text wanted)

def failEnd {α : Type} : Parser α := do
  throw ⟨← here, .unexpectedEnd⟩

/-- Gives up at the end of the text and at a token that could not be read. -/
def needToken : Parser Unit := do
  match ← token with
  | .bad found => advance; throw found
  | .eof => failEnd
  | _ => return ()

def is (m : Mark) : Parser Bool := do return (← token) = .mark m

def isOp (op : BinaryOp) : Parser Bool := is (.binary op)

def isEnd : Parser Bool := do return (← token) = .eof

def isThe (w : String) : Parser Bool := do return (← token).isThe w

def isAnyWord : Parser Bool := do return (← token).isWord

def peekIs (m : Mark) : Parser Bool := do return (← peek).token = .mark m

def peekIsThe (w : String) : Parser Bool := do return (← peek).token.isThe w

def eat (m : Mark) : Parser Bool := do
  if ← is m then advance; return true else return false

def eatOp (op : BinaryOp) : Parser Bool := eat (.binary op)

def eatWord (w : String) : Parser Bool := do
  if ← isThe w then advance; return true else return false

def expect (m : Mark) : Parser Unit := do
  unless ← eat m do fail (.expected m.text (← token).text)

def expectWord (w : String) : Parser Unit := do
  unless ← eatWord w do fail (.expected w (← token).text)

/-- Runs `p` in another mode. The old mode comes back even if `p` gives up. -/
def withMode {α : Type} (change : Mode → Mode) (p : Parser α) : Parser α := fun s =>
  match p { s with mode := change s.mode } with
  | .ok a t => .ok a { t with mode := s.mode }
  | .error e t => .error e { t with mode := s.mode }

def inType {α : Type} (p : Parser α) : Parser α := withMode ({ · with inType := true }) p

/-- Tries `p` without recording mistakes, and takes the state back if it gives up or declines. -/
def attempt {α : Type} (p : Parser (Option α)) : Parser (Option α) := fun s =>
  match p { s with mode := { s.mode with silent := true } } with
  | .ok (some a) t => .ok (some a) { t with mode := s.mode }
  | _ => .ok none s

def recover {α : Type} (p : Parser α) (handle : Issue → Parser α) : Parser α := fun s =>
  match p s with
  | .ok a t => .ok a t
  | .error e t => handle e t

def lookAhead (p : Parser Bool) : Parser Bool := fun s =>
  match p { s with mode := { s.mode with silent := true } } with
  | .ok b _ => .ok b s
  | .error _ _ => .ok false s

/-- More steps than a loop over the rest of the text can take. -/
def budget : Parser Nat := do
  return (← get).lexeme.next.rest.length + 2

def loop {α β : Type} (step : α → Parser (α ⊕ β)) : Nat → α → Parser β
  | 0, _ => fail .tooDeep
  | fuel + 1, a => do
    match ← step a with
    | .inl a => loop step fuel a
    | .inr b => return b

def collect {α : Type} (step : Parser (Option α)) : Parser (List α) := do
  let found ← loop (fun acc => do
    match ← step with
    | some a => return .inl (a :: acc)
    | none => return .inr acc) (← budget) []
  return found.reverse

def isStatementEnd : Parser Bool := do
  match ← token with
  | .mark .semi | .mark .rbrace | .eof => return true
  | _ => onNewLine

/-- Goes over a semicolon, or over none where none is needed. -/
def eatStatementEnd : Parser Bool := do
  match ← token with
  | .mark .semi => advance; return true
  | .mark .rbrace | .eof => return true
  | _ => onNewLine

def expectStatementEnd : Parser Unit := do
  unless ← eatStatementEnd do fail (.expected ";" (← token).text)

def isReference : Parser Bool := do
  return (← token).isReference

def peekIsReference : Parser Bool := do
  return (← peek).token.isReference

def wordText : Parser String := do
  match ← token with
  | .word name true => return name
  | _ => return ""

def anyName : Parser Node := do
  let span ← here
  match ← token with
  | .word name _ => advance; return .mk (.name name) span []
  | .markupName name => advance; return .mk (.name name) span []
  | _ => fail .expectedName

/-- A private name behind its sign, which it must follow directly. -/
def privateName : Parser Node := do
  let start ← position
  let sign ← here
  advance
  if sign.stop < (← position) then failAt (← spanFrom start) .spaceAfterHash
  let name ← anyName
  return .mk (.privateName (name.name?.getD "")) (← spanFrom start) []

/-- A word that names a variable. Words that strict code reserves are reported and taken; `yield` is
taken only if `yieldAllowed` holds. -/
def identifier (yieldAllowed : Bool) : Parser Node := do
  let span ← here
  let .word name plain ← token | fail .expectedName
  advance
  let node := Node.mk (.name name) span []
  let m ← mode
  let isThis := name == "this" && (← isTypescript)
  if !plain || !(isReserved name) then
    if name == "arguments" && m.inField then emit span .argumentsInField
    return node
  if name == "enum" || strictWords.contains name then
    emit span (.reservedName name)
    if name == "yield" && !yieldAllowed then failAt span .expectedName
    return node
  if name == "await" then
    if m.inDeclare then return node
    failAt span (if m.inStaticBlock then .expectedName else .awaitName)
  if isThis then return node else failAt span .expectedName

def bindingName : Parser Node := do
  let t ← token
  if t.className == "<identifier>" then
    let node ← anyName
    if (node.name?.map isReservedBinding).getD false then emit node.span .reservedBinding
    return node
  let node ← identifier true
  let m ← mode
  let isAwait := node.name? = some "await" && (m.inAsync || m.inStaticBlock)
  let isYield := node.name? = some "yield" && m.inGenerator
  if isAwait || isYield then emit node.span .expectedName
  return node

/-- A word that a declaration of a block or a class gives a meaning to: not `let`. -/
def blockBindingName : Parser Node := do
  if ← isThe "let" then unexpected "let is reserved in const, let, class declaration"
  bindingName

def optionalName : Parser (List Node) := do
  if (← isReference) || ((← isTypescript) && (← isThe "this")) then return [← bindingName]
  else return []

end Parser

/-- The parsers that others call for the parts of what they read. Each is one level deeper. -/
structure Grammar where
  /-- An expression without a comma at its top. -/
  assign : Parser Node
  /-- An operand of a binary operator. -/
  unary : Parser Node
  /-- The rest of a chain of binary operators tighter than the given strength. -/
  binaryRest : Node → Nat → Parser Node
  /-- A name, literal, construction or bracketed expression with its members. -/
  memberOrNew : Parser Node
  /-- The same with its calls. -/
  callOrMember : Parser Node
  /-- The members behind an operand, and its calls and computed members unless they are refused. -/
  suffixes : (noCall noComputed : Bool) → Node → Parser Node
  /-- An object literal. -/
  object : Parser Node
  /-- The decorators in front of a parameter or a member. -/
  decorators : Parser (List Node)
  type : Parser Node
  typeOperator : Parser Node
  /-- A name or a destructuring pattern. -/
  pattern : Parser Node
  /-- A statement; declarations may be refused. -/
  statement : Bool → Parser Node
  moduleItem : Parser Node
  /-- A tag and what it encloses, inside an expression or inside another tag. -/
  markup : Bool → Parser Node

def Grammar.exhausted : Grammar where
  assign := Parser.fail .tooDeep
  unary := Parser.fail .tooDeep
  binaryRest _ _ := Parser.fail .tooDeep
  memberOrNew := Parser.fail .tooDeep
  callOrMember := Parser.fail .tooDeep
  suffixes _ _ _ := Parser.fail .tooDeep
  object := Parser.fail .tooDeep
  decorators := Parser.fail .tooDeep
  type := Parser.fail .tooDeep
  typeOperator := Parser.fail .tooDeep
  pattern := Parser.fail .tooDeep
  statement _ := Parser.fail .tooDeep
  moduleItem := Parser.fail .tooDeep
  markup _ := Parser.fail .tooDeep

end Syntax
end CastLint
