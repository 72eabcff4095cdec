import CastLint.Syntax.Parser.Operands

/-! Members and calls behind an operand, and constructions. -/

namespace CastLint
namespace Syntax
namespace Parser

/-- A link of an expression that can break off, or that follows one which can. -/
def isLink (n : Node) : Bool :=
  match n.kind with
  | .chainMember _ | .chainCall _ => true
  | _ => false

def isChain : Node → Bool
  | .mk .nonNull _ [inner] => isChain inner
  | n => isLink n

def isExpression (n : Node) : Bool := n.kind ≠ .superExpr && n.kind ≠ .importCall

def superMember (object : Node) (optional noCall : Bool) (span : Span) (prop : Node) :
    Parser Node := do
  unless (← mode).superAllowed || (← isTypescript) do failAt object.span .superOutside
  if optional then failAt object.span (if noCall then .superCallOutside else .superOutside)
  if isPrivate prop then fail .superCallOutside
  return .mk .superMember span [object, prop]

/-- A member of an operand; `optional` holds behind a link that can break off. -/
def memberNode (object : Node) (optional : Bool) (span : Span) (prop : Node) : Node :=
  .mk (if optional || isChain object then .chainMember optional else .member) span [object, prop]

def callNode (object : Node) (optional : Bool) (span : Span) (parts : List Node) : Node :=
  .mk (if optional || isChain object then .chainCall optional else .call) span (object :: parts)

def memberProperty : Parser Node := do
  if ← is .hash then return ← privateName
  let name ← anyName
  return .mk (.plainKey (name.name?.getD "")) name.span []

section

variable (g : Grammar)

def operandWords : List String :=
  ["null", "true", "false", "function", "new", "this", "super", "class", "typeof", "void", "delete",
    "await", "yield"]

/-- What follows type arguments goes on as the right side of a comparison. -/
def comparesOn : Parser Bool := do
  match ← token with
  | .word name plain =>
    if plain && name == "import" then
      return (← peekIs .lparen) || (← peekIs .dot) || (← peekIs (.binary .lt))
    return !(plain && isReserved name) || operandWords.contains name
  | .mark .hash => return (← peek).token.isWord
  | .mark m => return [.lparen, .lbracket, .lbrace, .bang, .tilde, .incr, .decr].contains m
  | .number _ | .bigint _ | .string _ _ | .template _ _ _ | .regex _ _ => return true
  | _ => return false

/-- Type arguments that the tokens behind them do not turn into comparisons. -/
def instantiation? : Parser (Option Node) := attempt do
  let types ← typeArguments g
  match ← token with
  | .template _ _ _ => return none
  | .mark m =>
    if [.binary .lt, .binary .gt, .assign none, .binary .shr, .binary .ge, .binary .add,
        .binary .sub, .lparen, .binary .ushr].contains m then return none
  | _ => pure ()
  if (← onNewLine) || (← token).isBinaryMark || (← isThe "as") || (← isThe "satisfies") then
    return some types
  if ← comparesOn then return none else return some types

def instantiated (start : Nat) (object : Node) : Parser Node := do
  unless (← isTypescript) && (← isOp .lt) do return object
  match ← instantiation? g with
  | some types => return .mk .instantiation (← spanFrom start) [object, types]
  | none => return object

def taggedNode (tag : Node) (types : List Node) : Parser Node := do
  let text ← templateNode g true
  let span ← spanFrom tag.start
  if isLink tag then emit span .taggedChain
  return .mk .tagged span (tag :: types ++ [text])

def genericSuffix? (start : Nat) (noCall : Bool) (object : Node) :
    Parser (Option (Node × Bool)) := attempt do
  if !noCall && object.kind = .name "async" && (← get).arrowStart = some object.start then
    if let some arrow ← genericAsyncArrow? g start then return some (arrow, true)
  let types ← typeArguments g
  if !noCall && (← is .lparen) then
    let args ← arguments g
    return some (callNode object false (← spanFrom start) (args ++ [types]), true)
  match ← token with
  | .template _ _ _ => return some (← taggedNode g object [types], true)
  | t =>
    if t = .mark (.assign none) || t.isThe "as" || t.isThe "satisfies" then
      return some (.mk .instantiation (← spanFrom start) [object, types], false)
    else return none

def computedMember (start : Nat) (optional noCall : Bool) (object : Node) : Parser Node := do
  let index ← enclosed (expression g)
  expect .rbracket
  let key := Node.mk .computedKey index.span [index]
  let span ← spanFrom object.start
  if object.kind = .superExpr then superMember object optional noCall span key
  else instantiated g start (memberNode object optional span key)

/-- A member behind its dot. Behind `import` only one name is no call. -/
def namedMember (start : Nat) (optional noCall : Bool) (object : Node) : Parser Node := do
  let prop ← memberProperty
  let span ← spanFrom object.start
  match object.kind with
  | .superExpr => superMember object optional noCall span prop
  | .importCall =>
    if isPrivate prop then unexpected "meta"
    if prop.kind = .plainKey "meta" then return .mk .metaProperty span []
    let args ← argumentsOf g (!(← isTypescript))
    return .mk .call span (object :: args)
  | _ => instantiated g start (memberNode object optional span prop)

/-- The arguments of a call; `optional` holds behind a link that can break off, and then type
arguments can stand in front. -/
def callSuffix (start : Nat) (optional : Bool) (object : Node) : Parser Node := do
  let types ← if optional && (← isOp .lt) then pure [← typeArguments g] else pure []
  let args ← argumentsOf g (object.kind = .importCall && !(← isTypescript))
  let span ← spanFrom start
  if optional && !isExpression object then fail .superCallOptional
  return callNode object optional span (args ++ types)

def eatLink : Parser Bool := do
  if (← is .question) && (← peekIs .dot) then
    advance
    advance
    return true
  else return false

/-- One member or call behind an operand that starts at `start`, if there is one; and whether more
can follow. -/
def suffix (start : Nat) (noCall noComputed : Bool) (object : Node) : Parser (Node × Bool) := do
  let ts ← isTypescript
  if ts && !(← onNewLine) && (← is .bang) then
    advance
    if object.kind = .superExpr then fail (.nonNullNotAllowed "super")
    if object.kind = .importCall then fail (.nonNullNotAllowed "import")
    return (.mk .nonNull (← spanFrom start) [object], true)
  if ts && isExpression object && ((← isOp .lt) || (← isOp .shl)) then
    if let some found ← genericSuffix? g start noCall object then return found
  let types ← if ts && (← isOp .lt) then instantiation? g else pure none
  if object.kind = .importCall && !(← is .dot) && !(← is .lparen) then unexpected "`.` or `(`"
  let optional ← eatLink
  if !noComputed && (← eat .lbracket) then
    return (← computedMember g start optional noCall object, true)
  let opensCall := (← is .lparen) || (optional && ts && (← isOp .lt))
  if opensCall && (optional || !noCall) then return (← callSuffix g start optional object, true)
  if optional then return (← namedMember g start true noCall object, true)
  if ← eat .dot then return (← namedMember g start false noCall object, true)
  if object.kind = .superExpr then
    fail (if noCall then .superCallOutside else .superOutside)
  if object.kind = .importCall then fail .invalidImport
  if let some types := types then
    return (.mk .instantiation (← spanFrom start) [object, types], false)
  match ← token with
  | .template _ _ _ =>
    return (← withMode ({ · with colonAhead := false }) (taggedNode g object []), true)
  | _ => return (object, false)

/-- All members behind an operand, unless `noCall` holds all calls, and unless `noComputed` holds
all members in brackets. -/
def suffixes (noCall noComputed : Bool) (object : Node) : Parser Node := do
  loop (fun node => do
    let (node, more) ← suffix g object.start noCall noComputed node
    if more then return .inl node else return .inr node) (← budget) object

def importNode (noCall : Bool) : Parser Node := do
  let start ← position
  expectWord "import"
  if ← eat .dot then
    let name ← anyName
    match name.name? with
    | some "meta" => suffixes g noCall false (.mk .metaProperty (← spanFrom start) [])
    | some "defer" | some "source" => suffixes g noCall false (.mk .importCall (← spanFrom start) [])
    | _ => unexpected "meta"
  else suffixes g noCall false (.mk .importCall (← spanFrom start) [])

def newNode : Parser Node := do
  let start ← position
  expectWord "new"
  if ← eat .dot then
    unless ← eatWord "target" do unexpected "target"
    let span ← spanFrom start
    let m ← mode
    unless m.ownScope || m.inParameters || m.inClass do emit span .newTargetOutside
    return ← suffixes g true false (.mk .metaProperty span [])
  let callee ← g.memberOrNew
  if callee.kind = .arrow then return callee
  if callee.kind = .chainMember true || callee.kind = .chainCall true then
    failAt callee.span .chainAfterNew
  let types ← if (← isTypescript) && ((← isOp .lt) || (← isOp .shl)) then attempt do
      let types ← typeArguments g
      if ← is .lparen then return some types else return none
    else pure none
  if ← is .lparen then
    let args ← arguments g
    suffixes g true false (.mk (.new true) (← spanFrom start) (callee :: args ++ types.toList))
  else return .mk (.new false) (← spanFrom start) (callee :: types.toList)

def memberOrNew : Parser Node := do
  let span ← here
  if ← isThe "new" then return ← newNode g
  if ← isThe "super" then
    advance
    return ← suffixes g true false (.mk .superExpr span [])
  if ← isThe "import" then return ← importNode g true
  let node ← operandNode g
  if node.kind = .arrow then return node
  suffixes g true false (← instantiated g span.start node)

def callOrMember : Parser Node := do
  let span ← here
  if (← dialect).markup then
    needToken
    if ← isOp .lt then return ← g.markup true
  if ← isThe "super" then
    advance
    return ← suffixes g false false (.mk .superExpr span [])
  if ← isThe "import" then return ← importNode g false
  let callee ← memberOrNew g
  if callee.kind = .arrow then return callee
  let types ← if (← isTypescript) && ((← isOp .lt) || (← isOp .shl)) then attempt do
      let types ← typeArguments g
      if ← is .lparen then return some types else return none
    else pure none
  if callee.kind = .new false then return callee
  if ← is .lparen then
    let args ← arguments g
    let call := callNode callee false (← spanFrom span.start) (args ++ types.toList)
    suffixes g false false call
  else return callee

end

end Parser
end Syntax
end CastLint
