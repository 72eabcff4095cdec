import CastLint.Syntax.Parser.Literals

/-! Operands without members and calls: names, literals, functions and what stands in parentheses,
which may turn out to be the parameters of an arrow function. -/

namespace CastLint
namespace Syntax
namespace Parser

/-- What stands between parentheses: an expression, or something that only a parameter can be. -/
inductive ParenItem where
  | expression (node : Node)
  | parameter (node : Node)

namespace ParenItem

def node : ParenItem → Node
  | expression n => n
  | parameter n => n

def isParameter : ParenItem → Bool
  | expression _ => false
  | parameter _ => true

def unspread : ParenItem → Node
  | expression (.mk .spread _ [inner]) => inner
  | item => item.node

def isName (item : ParenItem) : Bool := item.unspread.isName

end ParenItem

def boundNames : Nat → Node → List Node
  | 0, _ => []
  | fuel + 1, .mk kind span parts =>
    match kind, parts with
    | .name _, _ => [.mk kind span parts]
    | .arrayPattern, elements => elements.flatMap (boundNames fuel)
    | .objectPattern, entries => entries.flatMap (boundNames fuel)
    | .patternEntry, [_, value] => boundNames fuel value
    | .patternShorthand, key :: _ => [key]
    | .restPattern, argument :: _ => boundNames fuel argument
    | .defaultPattern, left :: _ => boundNames fuel left
    | _, _ => []

def checkBinding (pattern : Node) : Parser Unit := do
  for name in boundNames (pattern.stop - pattern.start + 2) pattern do
    if (name.name?.map isReservedBinding).getD false then emit name.span .reservedBinding

def asParameters (items : List ParenItem) (trailing : Option Span) : Parser (List Node) := do
  let count := items.length
  let found ← items.zipIdx.filterMapM fun (item, i) => do
    let isLast := i + 1 = count
    match item with
    | .expression (.mk .spread span [inner]) =>
      if !isLast then
        emit span .restParameterNotLast
        return none
      if let .assign _ := inner.kind then emit span .restWithValue
      if let some comma := trailing then emit comma .commaAfterRest
      return some (Node.mk .restPattern span [← toPattern .binding inner])
    | .expression node => return some (← toPattern .binding node)
    | .parameter (.mk .restPattern span parts) =>
      if !isLast then
        emit span .restParameterNotLast
        return none
      if let some comma := trailing then emit comma .commaAfterRest
      return some (.mk .restPattern span parts)
    | .parameter node => return some node
  for pattern in found do checkBinding pattern
  return found

section

variable (g : Grammar)

/-- A question mark behind something in parentheses: it makes a parameter optional, or starts the
branches of a conditional expression. -/
def parenQuestion (start : Nat) (node : Node) : Parser (Node × Bool) := do
  unless (← isTypescript) && (← is .question) do return (node, false)
  let next := (← peek).token
  let inner := match node with
    | .mk .spread _ [inner] => inner
    | _ => node
  if [.mark .comma, .mark (.assign none), .mark .rparen, .mark .colon].contains next then
    advance
    if node.kind = .spread then emit (← before) .restOptional
    unless inner.isName do failAt node.span .patternOptional
    return (node, true)
  else if node.kind = .spread then return (node, false)
  else return (← conditionalRest g start node, false)

def parenParameter (start : Nat) (node : Node) : Parser Node := do
  let pattern ← match node with
    | .mk .spread span [inner] => do
      pure (Node.mk .restPattern span [← toPattern .binding inner])
    | _ => toPattern .binding node
  let pattern ← if pattern.kind = .invalid then pure pattern else typed g pattern
  if ← eat (.assign none) then
    let right ← g.assign
    return .mk .defaultPattern ⟨start, right.stop⟩ [pattern, right]
  else return pattern

def parenItem : Parser ParenItem := do
  let start ← position
  modify ({ · with arrowStart := some start })
  let modified ← parameterModifier
  let inner ← position
  let ts ← isTypescript
  let isPlain ← if ← is .ellipsis then peekIsReference else isReference
  let node ← if ts && isPlain then do
      if ← eat .ellipsis then
        let operand ← enclosed (binaryNode g)
        pure (Node.mk .spread (← spanFrom inner) [operand])
      else
        let operand ← binaryNode g
        assignmentRest g start operand
    else enclosed (spreadable g)
  let (node, isOptional) ← parenQuestion g start node
  let item ← if isOptional || (ts && (← is .colon)) then
      ParenItem.parameter <$> parenParameter g inner node
    else pure (ParenItem.expression node)
  if modified then emit (← spanFrom start) .parameterProperty
  return item

def parenItems : Parser (List ParenItem × Option Span) := do
  expect .lparen
  let (items, trailing) ← loop (fun (acc, trailing) => do
    if (← is .rparen) || (← isEnd) then return .inr (acc, trailing)
    let start ← position
    let acc := (← parenItem g) :: acc
    let isArrow ← eat .arrow
    let acc ← if isArrow && acc.getLast?.any ParenItem.isName then do
        let params ← asParameters acc.reverse none
        let body ← arrowBody g false (arePlain params)
        let arrow := Node.mk .arrow (← spanFrom start) (params ++ [body])
        pure (.expression arrow :: acc)
      else pure acc
    if ← is .rparen then return .inl (acc, trailing)
    expect .comma
    let trailing ← if ← is .rparen then some <$> before else pure trailing
    return .inl (acc, trailing)) (← budget) ([], none)
  expect .rparen
  return (items.reverse, trailing)

/-- Parentheses that hold no parameters: an expression, or the arguments of a function with the
name `async`. -/
def parenNode (start : Nat) (async : Option Span) (items : List ParenItem) : Parser Node := do
  for item in items do
    if let .mk .object _ entries := item.unspread then
      for entry in entries do
        if entry.kind = .shorthandDefault then emit entry.span .shorthandValue
  let nodes := items.map ParenItem.node
  if let some span := async then
    return .mk .call (← spanFrom start) (.mk (.name "async") span [] :: nodes)
  for node in nodes do
    if let .mk .spread _ [inner] := node then failAt inner.span .spreadInParens
  let span ← spanFrom start
  match nodes with
  | [] => failAt span .emptyParens
  | [node] => return .mk .paren span [node]
  | first :: more =>
    let stop := (more.getLast?.map Node.stop).getD first.stop
    return .mk .paren span [.mk .sequence ⟨first.start, stop⟩ nodes]

def parenOrArrow (mayBeArrow : Bool) (async : Option Span) : Parser Node := do
  let start ← match async with
    | some span => pure span.start
    | none => position
  let (items, trailing) ← withMode ({ · with colonAhead := false, operatorIn := true })
    (parenItems g)
  let ts ← isTypescript
  let m ← mode
  let whole (result : List Node) : Parser Node := do
    let params ← asParameters items trailing
    let body ← arrowBody g async.isSome (arePlain params)
    return .mk .arrow (← spanFrom start) (params ++ body :: result)
  if ts && m.inConditional && (← is .colon) then
    let arrow ← attempt do
      let result ← returnType g .colon
      expect .arrow
      let node ← whole [result]
      if m.colonAhead && !(← is .colon) then return none
      return some node
    if let some node := arrow then return node
  let result ← if ts && !m.colonAhead && (← is .colon) then attempt do
      let result ← returnType g .colon
      if ← is .arrow then return some result else return none
    else pure none
  unless items.any ParenItem.isParameter || result.isSome || (← is .arrow) do
    return ← parenNode start async items
  if ← onNewLine then failAt (← spanFrom start) .breakBeforeArrow
  unless mayBeArrow do failAt (← spanFrom start) .arrowNotAllowed
  expect .arrow
  let arrow ← whole result.toList
  let endsInBlock := arrow.parts.any fun part => part.kind = .block
  if endsInBlock && (← token).isBinaryMark then
    emit (← here) .expectedSemicolon
    let whole ← g.binaryRest arrow 0
    unless ← isStatementEnd do emit (← here) .expectedSemicolon
    return whole
  else return arrow

def genericAsyncArrow? (start : Nat) : Parser (Option Node) := attempt do
  let types ← typeParameters g ⟨false, false⟩
  expect .lparen
  let params ← functionParameters g
  expect .rparen
  let result ← if ← is .colon then pure [← returnType g .colon] else pure []
  expect .arrow
  let body ← arrowBody g true (arePlain (parameterPatterns params))
  return some (.mk .arrow (← spanFrom start) (params ++ body :: types :: result))

def asyncNode? (mayBeArrow : Bool) : Parser (Option Node) := do
  let span ← here
  let next ← peek
  if next.token.isThe "function" && !next.newline then
    advance
    return some (← functionNode g span.start [] true true false)
  if mayBeArrow && (← isTypescript) && next.token = .mark (.binary .lt) then
    let arrow ← attempt do
      advance
      genericAsyncArrow? g span.start
    if arrow.isSome then return arrow
  if mayBeArrow && next.token = .mark .lparen && !next.newline then
    advance
    return some (← parenOrArrow g mayBeArrow (some span))
  return none

/-- An asynchronous arrow function with one parameter, or another expression that starts with the
name `async` in front of a word. In the head of a loop over values the name may stand alone, but
not well. -/
def asyncName (name : Node) : Parser Node := do
  let m ← mode
  if m.loopHead && (← isThe "of") && !(← peekIs .arrow) then
    unless m.awaitLoopHead do emit name.span .asyncInForOf
    return name
  let param ← bindingName
  if (← isTypescript) && param.name? = some "as" && !(← is .arrow) then
    let type ← inType g.type
    return .mk .asCast (← spanFrom name.start) [name, type]
  expect .arrow
  let body ← arrowBody g true true
  return .mk .arrow (← spanFrom name.start) [param, body]

def nameOrArrow (mayBeArrow : Bool) : Parser Node := do
  let isAsync ← isThe "async"
  let name ← identifier (!(← mode).inGenerator)
  unless mayBeArrow && !(← onNewLine) do return name
  if isAsync && (← isReference) then return ← asyncName g name
  unless ← eat .arrow do return name
  checkBinding name
  let body ← arrowBody g false true
  return .mk .arrow (← spanFrom name.start) [name, body]

def wordOperand (mayBeArrow : Bool) : Parser Node := do
  let span ← here
  let name ← wordText
  match name with
  | "this" =>
    advance
    return .mk .thisExpr span []
  | "null" | "true" | "false" =>
    advance
    return .mk .literal span []
  | "function" => functionNode g span.start [] false true false
  | "class" => classNode g span.start [] .classExpr false false
  | _ =>
    if name == "async" then
      if let some node ← asyncNode? g mayBeArrow then return node
    let isAwait := name == "await" && (← isTypescript)
    if name == "let" || isAwait || (← isReference) then nameOrArrow g mayBeArrow
    else fail .expressionExpected

def operandNode : Parser Node := do
  let span ← here
  let mayBeArrow := (← get).arrowStart = some span.start
  match ← token with
  | .word _ _ => wordOperand g mayBeArrow
  | .string _ raw =>
    advance
    return .mk (.stringLiteral raw) span []
  | .number _ | .bigint _ =>
    advance
    return .mk .literal span []
  | .template _ _ _ => templateNode g false
  | .mark .lbracket => arrayNode g
  | .mark .lbrace => objectNode g
  | .mark .lparen => parenOrArrow g mayBeArrow none
  | .mark (.binary .div) | .mark (.assign (some .div)) => regexNode
  | _ =>
    let decorators ← decorators g false
    if ← isThe "class" then classNode g span.start decorators .classExpr false false
    else if ← eat .hash then
      let name ← anyName
      return .mk (.privateName (name.name?.getD "")) (← spanFrom span.start) []
    else fail .expressionExpected

end

end Parser
end Syntax
end CastLint
