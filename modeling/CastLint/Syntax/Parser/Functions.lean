import CastLint.Syntax.Parser.Patterns

/-! Calls, decorators and the bodies of functions. -/

namespace CastLint
namespace Syntax
namespace Parser

section

variable (g : Grammar)

def expression : Parser Node := do
  let first ← g.assign
  unless ← is .comma do return first
  let more ← collect do
    if ← eat .comma then some <$> g.assign else return none
  return .mk .sequence (← spanFrom first.start) (first :: more)

def enclosed {α : Type} (p : Parser α) : Parser α := withMode ({ · with operatorIn := true }) p

def spreadable : Parser Node := do
  let start ← position
  if ← eat .ellipsis then
    let inner ← enclosed g.assign
    return .mk .spread (← spanFrom start) [inner]
  else g.assign

/-- The arguments of a call in their parentheses. A comma may stand in front of the closing one
unless `commaRefused` holds. -/
def argumentsOf (commaRefused : Bool) : Parser (List Node) :=
  withMode ({ · with operatorIn := true, colonAhead := false }) do
    let start ← position
    expect .lparen
    let found ← loop (fun acc => do
      if (← is .rparen) || (← isEnd) then return .inr acc
      unless acc.isEmpty do
        expect .comma
        if (← is .rparen) && commaRefused then failAt (← spanFrom start) .importComma
      if !acc.isEmpty && (← is .rparen) then return .inr acc
      return .inl ((← spreadable g) :: acc)) (← budget) []
    expect .rparen
    return found.reverse

def arguments : Parser (List Node) := argumentsOf g false

def decorator : Parser Node := do
  let start ← position
  expect .atSign
  let callee ← if ← is .lparen then do
      let inner ← position
      advance
      let e ← enclosed (expression g)
      expect .rparen
      pure (Node.mk .paren (← spanFrom inner) [e])
    else do
      g.suffixes false true (← identifier false)
  let types ← if (← isTypescript) && (← isOp .lt) then pure [← typeArguments g] else pure []
  let whole ← if (← is .lparen) || !types.isEmpty then do
      let args ← arguments g
      pure (Node.mk .call (← spanFrom callee.start) (callee :: args ++ types))
    else pure callee
  return .mk .decorator (← spanFrom start) [whole]

def decorators (exportAllowed : Bool) : Parser (List Node) := do
  unless (← dialect).decorators do return []
  let start ← position
  let found ← collect do
    if ← is .atSign then some <$> decorator g else return none
  if !found.isEmpty && (← isThe "export") && !(← mode).inClass && !(← mode).inFunction then
    unless exportAllowed do fail .exportNotAllowed
    unless ← isTypescript do failAt (← spanFrom start) .decoratorOnExport
  return found

def blockBody (item : Parser Node) : Parser (List Node) := do
  let items ← collect do
    if ← isEnd then
      emit (← here) (.expected "\x7d" (← token).text)
      return none
    if ← is .rbrace then return none
    some <$> item
  unless ← isEnd do advance
  return items

def block : Parser Node := do
  let start ← position
  expect .lbrace
  let items ← blockBody (withMode ({ · with loopHead := false }) (g.statement true))
  return .mk .block (← spanFrom start) items

def arrowMode (isAsync : Bool) (m : Mode) : Mode :=
  { m with
    inAsync := isAsync, inGenerator := false, inFunction := true, inStaticBlock := false,
    breakAllowed := false, continueAllowed := false, loopHead := false, awaitLoopHead := false,
    inType := false }

def functionMode (isAsync isGenerator : Bool) (m : Mode) : Mode :=
  { arrowMode isAsync m with inGenerator := isGenerator, ownScope := true, inField := false }

def withoutLabels {α : Type} (p : Parser α) : Parser α := do
  let labels := (← get).labels
  modify ({ · with labels := [] })
  let a ← p
  modify ({ · with labels := labels })
  return a

def directives (body : Node) : List (Span × String) :=
  (body.parts.map fun statement =>
    match statement with
    | .mk .expressionStatement span [.mk (.stringLiteral raw) _ _] => some (span, raw)
    | _ => none).takeWhile Option.isSome |>.filterMap id

def arePlain (patterns : List Node) : Bool := patterns.all Node.isName

/-- The statements of a function, which has plain parameters if `plain` holds. Only such a function
can turn strict by itself. -/
def functionBlock (plain : Bool) : Parser Node := do
  if (← isTypescript) && (← mode).inDeclare && (← is .lbrace) then emit (← here) .bodyInAmbient
  let body ← withMode ({ · with operatorIn := true, colonAhead := false, inConditional := false })
    (block g)
  unless plain do
    let strict := (directives body).find? fun (_, raw) =>
      raw == "\"use strict\"" || raw == "'use strict'"
    if let some (span, _) := strict then emit span .strictDirective
  return body

/-- The body of a function in braces. A signature of an overloaded function has none. -/
def functionBody (isAsync isGenerator plain : Bool) : Parser (Option Node) :=
  withMode (functionMode isAsync isGenerator) <| withoutLabels do
    if (← isTypescript) && !(← is .lbrace) then
      if ← eatStatementEnd then return none
    some <$> functionBlock g plain

def arrowBody (isAsync plain : Bool) : Parser Node :=
  withMode (arrowMode isAsync) <| withoutLabels do
    if ← is .lbrace then functionBlock g plain else g.assign

def parameterPatterns (params : List Node) : List Node := params.filterMap (·.parts.getLast?)

def checkBodiless (params : List Node) : Parser Unit := do
  if ← isTypescript then
    for p in params do
      if let some pattern := p.parts.getLast? then
        if pattern.kind = .defaultPattern then emit pattern.span .valueWithoutBody

/-- Everything of a function behind its name, in the order of a walk, and whether it has a body. -/
def functionRest (decorators : List Node) (isAsync isGenerator : Bool)
    (params : Parser (List Node)) : Parser (List Node × Bool) :=
  withMode (fun m => { m with
    inAsync := isAsync, inGenerator := isGenerator, inConditional := false, colonAhead := false,
    operatorIn := true }) do
    let types ← if ← isTypescript then functionTypeParameters? g else pure []
    expect .lparen
    let params ← withMode ({ · with inParameters := true, inFunction := false }) params
    expect .rparen
    let result ← if (← isTypescript) && (← is .colon) then pure [← returnType g .colon]
      else pure []
    let body ← functionBody g isAsync isGenerator (arePlain (parameterPatterns params))
    if body.isNone then checkBodiless params
    return (params ++ decorators ++ body.toList ++ types ++ result, body.isSome)

def functionParameters : Parser (List Node) := parameters g (decorators g false)

/-- A function from its keyword on. A declaration must have a name and may lack a body. -/
def functionNode (start : Nat) (decorators : List Node) (isAsync isExpression : Bool)
    (nameRequired : Bool) : Parser Node := do
  expectWord "function"
  let isGenerator ← eatOp .mul
  let name : Parser (List Node) := do
    if nameRequired then return [← bindingName] else optionalName
  let name ← if isExpression then
      withMode ({ · with inAsync := isAsync, inGenerator := isGenerator }) name
    else name
  let (parts, hasBody) ← withMode ({ · with superAllowed := false, inField := false })
    (functionRest g decorators isAsync isGenerator (functionParameters g))
  if isExpression && !hasBody then unexpected "\x7b"
  return .mk (if isExpression then .function else .functionDeclaration) (← spanFrom start)
    (name ++ parts)

def methodRest (decorators : List Node) (isAsync isGenerator : Bool)
    (params : Parser (List Node)) : Parser (List Node × Bool) :=
  withMode ({ · with superAllowed := true, inField := false })
    (functionRest g decorators isAsync isGenerator params)

def isThisParameter (p : Node) : Bool :=
  match p.parts.getLast? with
  | some pattern => pattern.name? = some "this"
  | none => false

def getterParameters (key : Span) : Parser (List Node) := do
  let params ← functionParameters g
  if params.any (!isThisParameter ·) then emit key .getterParameter
  return params

def checkSetterRest (params : List Node) : Parser Unit := do
  if let some pattern := (parameterPatterns params).head? then
    if pattern.kind = .restPattern then emit pattern.span .setterRest

def setterParameters (key : Span) : Parser (List Node) := do
  let params ← functionParameters g
  if (params.filter (!isThisParameter ·)).length ≠ 1 then emit key .setterParameter
  checkSetterRest params
  return params

end

end Parser
end Syntax
end CastLint
