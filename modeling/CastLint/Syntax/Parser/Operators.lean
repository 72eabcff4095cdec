import CastLint.Syntax.Parser.Classes

/-! Operators: in front of an operand, behind it, between two, and the casts that stand among
them. -/

namespace CastLint
namespace Syntax
namespace Parser

def isPrefixOperator : Token → Bool
  | .word name plain => plain && (name == "delete" || name == "void" || name == "typeof")
  | .mark m => m = .binary .add || m = .binary .sub || m = .tilde || m = .bang
  | _ => false

/-- What can stand on the left of an assignment, after it has been read as a pattern. -/
def isAssignable : Kind → Bool
  | .name _ | .member | .superMember | .chainMember _ | .chainCall _ | .paren | .asCast
  | .satisfies
  | .nonNull | .typeAssertion | .instantiation | .objectPattern | .arrayPattern | .invalid => true
  | _ => false

/-- The operator at the current token. `in` is none inside the head of a loop. -/
def operator? : Parser (Option BinaryOp) := do
  match ← token with
  | .mark (.binary op) => return some op
  | .word name true =>
    if name == "instanceof" then return some .instanceOf
    if name == "in" && (← mode).operatorIn then return some .isIn
    return none
  | _ => return none

def isLogical (n : Node) : Bool := n.kind = .binary .and || n.kind = .binary .or

def checkMixed (n : Node) : Parser Unit := do
  if isLogical n then
    if let left :: _ := n.parts then
      if left.kind = .binary .nullish then emit n.span .mixedNullish

section

variable (g : Grammar)

/-- The operand of an `await` at `span`, unless the word stands for a name. -/
def awaitRest (span : Span) : Parser Node := do
  if ← isOp .mul then fail .awaitStar
  let m ← mode
  let closes := (← is .rparen) || (← is .rbracket) || (← is .comma) || (← isStatementEnd)
  if closes && !m.inAsync then
    emit span .awaitName
    return .mk (.name "await") span []
  if m.inFunction && !m.inAsync then emit span .awaitOutside
  if m.inParameters && !m.inFunction then emit span .awaitParameter
  let operand ← g.unary
  return .mk .await (← spanFrom span.start) [operand]

def awaitNode : Parser Node := do
  let span ← here
  advance
  awaitRest g span

def typeAssertion : Parser Node := do
  let start ← position
  expect (.binary .lt)
  if ← eatWord "const" then
    expect (.binary .gt)
    let operand ← g.unary
    return .mk .constCast (← spanFrom start) [operand]
  let type ← inType g.type
  expect (.binary .gt)
  let operand ← g.unary
  return .mk .typeAssertion (← spanFrom start) [operand, type]

/-- The operand of an operator in front of it. A mistake in the operand is reported and leaves an
expression that stands for nothing. -/
def prefixed : Parser Node := do
  let start ← position
  let isDelete ← isThe "delete"
  advance
  let at_ := (← position) - 1
  let operand ← recover g.unary fun issue => do
    emitIssue issue
    return .mk .invalid ⟨at_, at_⟩ []
  if isDelete then
    if operand.isName then emit operand.span .deleteName
    let subject := operand.unparen
    let isMember : Bool := match subject.kind with
      | .member | .chainMember _ => true
      | _ => false
    if (← isTypescript) && !isMember then emit subject.span .deleteOperand
  return .mk .unary ⟨start, operand.stop⟩ [operand]

def unaryNode : Parser Node := do
  let start ← position
  let d ← dialect
  if d.typescript && !d.markup && (← isOp .lt) then return ← typeAssertion g
  if (← is .incr) || (← is .decr) then
    advance
    let target ← g.unary
    checkTarget target false
    return .mk .update ⟨start, target.stop⟩ [target]
  if isPrefixOperator (← token) then return ← prefixed g
  if ← isThe "await" then return ← awaitNode g
  let operand ← g.callOrMember
  if operand.kind = .arrow || (← onNewLine) then return operand
  if (← is .incr) || (← is .decr) then
    checkTarget operand false
    advance
    return .mk .update (← spanFrom operand.start) [operand]
  return operand

def castSuffixes (strength : Nat) (operand : Node) : Parser Node := do
  unless ← isTypescript do return operand
  loop (fun (node : Node) => do
    if ← onNewLine then return .inr node
    if strength < BinaryOp.isIn.precedence && (← isThe "as") then
      if ← peekIsThe "const" then
        advance
        advance
        return .inl (.mk .constCast (← spanFrom node.start) [node])
      let type ← inType do
        advance
        g.type
      let cast := Node.mk .asCast (← spanFrom node.start) [node, type]
      joinAngles
      return .inl cast
    if ← isThe "satisfies" then
      let type ← inType do
        advance
        g.type
      let checked := Node.mk .satisfies (← spanFrom node.start) [node, type]
      joinAngles
      return .inl checked
    return .inr node) (← budget) operand

/-- One operator tighter than `strength` and its right operand. Tells whether there was one. -/
def binaryStep (strength : Nat) (left : Node) : Parser (Node × Bool) := do
  let left ← castSuffixes g strength left
  let some op ← operator? | return (left, false)
  if op.precedence ≤ strength then return (left, false)
  advance
  if op = .exp && (left.kind = .unary || left.kind = .await) then fail .unaryInPower
  let operand ← g.unary
  let right ← g.binaryRest operand (if op = .exp then op.precedence - 1 else op.precedence)
  if op = .nullish then
    if isLogical left then emit left.span .mixedNullish
    if isLogical right then emit right.span .mixedNullish
  return (.mk (.binary op) ⟨left.start, right.stop⟩ [left, right], true)

def binaryRest (left : Node) (strength : Nat) : Parser Node := do
  loop (fun left => do
    let (node, more) ← binaryStep g strength left
    checkMixed node
    if more then return .inl node else return .inr node) (← budget) left

/-- Operands with operators between them. A missing first operand is reported if an operator
follows. -/
def binaryNode : Parser Node := do
  let left ← recover (unaryNode g) fun issue => do
    match ← token with
    | .eof => failEnd
    | .bad found =>
      advance
      throw found
    | _ =>
      if (← operator?).isNone then throw issue
      emit (← here) .expressionExpected
      return .mk .invalid issue.span []
  if left.kind = .arrow then return left
  binaryRest g left 0

def conditionalRest (start : Nat) (test : Node) : Parser Node := do
  expect .question
  let yes ← withMode ({ · with inConditional := true, colonAhead := true, operatorIn := true })
    g.assign
  expect .colon
  let no ← withMode ({ · with inConditional := true, colonAhead := false }) g.assign
  return .mk .conditional ⟨start, no.stop⟩ [test, yes, no]

def conditionalNode : Parser Node := do
  let start ← position
  let test ← binaryNode g
  if test.kind ≠ .arrow && (← is .question) then conditionalRest g start test else return test

def assignmentRest (start : Nat) (left : Node) : Parser Node := do
  let .mark (.assign op) ← token | return left
  let target ← match op with
    | none => toPattern .assignment left
    | some _ => do
      let ts ← isTypescript
      unless left.isPlace do emit left.span (if ts then .assignmentTarget else .notAssignable)
      if ts && (left.name?.map isReservedBinding).getD false then emit left.span .reservedTarget
      pure left
  unless isAssignable target.kind do failAt target.span .invalidTarget
  advance
  let right ← g.assign
  return .mk (.assign op) (← spanFrom start) [target, right]

def startsExpression : Parser Bool := do
  match ← token with
  | .word name plain =>
    return !plain || !isKeyword name || ["null", "true", "false", "function", "new", "this",
      "super", "class", "import", "typeof", "void", "delete"].contains name
  | .mark m =>
    return [.lparen, .lbracket, .lbrace, .bang, .tilde, .incr, .decr, .hash, .binary .add,
      .binary .sub, .binary .lt].contains m
  | .number _ | .bigint _ | .string _ _ | .template _ _ _ | .regex _ _ => return true
  | _ => return false

def yieldNode : Parser Node := do
  let start ← position
  advance
  let m ← mode
  if m.inParameters && !m.inFunction then failAt (← before) .yieldParameter
  let slash := (← isOp .div) || (← is (.assign (some .div)))
  let starts := (← isOp .mul) || slash || (← startsExpression)
  if (← isStatementEnd) || !starts then return .mk .yield (← spanFrom start) []
  let _ ← eatOp .mul
  let operand ← g.assign
  return .mk .yield (← spanFrom start) [operand]

def startsArrow : Token → Bool
  | .word name plain =>
    !plain || name == "yield" || name == "enum" ||
      !(isKeyword name || name == "let" || name == "await")
  | t => t = .mark .lparen

def assignBase : Parser Node := do
  needToken
  if (← mode).inGenerator && (← isThe "yield") then return ← yieldNode g
  let start ← position
  let mayBeArrow := startsArrow (← token)
  modify ({ · with arrowStart := if mayBeArrow then some start else none })
  let node ← conditionalNode g
  match node.kind with
  | .arrow | .conditional | .binary _ | .unary | .update => return node
  | _ => assignmentRest g start node

def genericArrow? : Parser (Option Node) := do
  unless (← isTypescript) && (← isOp .lt) && (← peek).token.isWord do return none
  withMode ({ · with colonAhead := false }) <| attempt do
    let types ← typeParameters g ⟨false, true⟩
    match ← assignBase g with
    | .mk .arrow span parts =>
      return some (.mk .arrow ⟨types.start, span.stop⟩ (parts ++ [types]))
    | _ => return none

def assignNode : Parser Node := do
  if let some arrow ← genericArrow? g then return arrow
  assignBase g

end

end Parser
end Syntax
end CastLint
