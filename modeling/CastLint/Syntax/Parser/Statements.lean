import CastLint.Syntax.Parser.Declarations

/-! Statements. -/

namespace CastLint
namespace Syntax
namespace Parser

section

variable (g : Grammar)

def condition : Parser Node := do
  expect .lparen
  let test ← enclosed (expression g)
  expect .rparen
  return test

def loopBody : Parser Node :=
  withMode ({ · with breakAllowed := true, continueAllowed := true }) (g.statement false)

def jump (isBreak : Bool) : Parser Node := do
  let start ← position
  advance
  let label ← if ← eatStatementEnd then pure none
    else do
      let name ← identifier (!(← mode).inGenerator)
      expectStatementEnd
      pure name.name?
  let span ← spanFrom start
  let labels := (← get).labels
  let known := (label.map labels.contains).getD true
  let m ← mode
  if isBreak then
    if !known then emit span .breakLabelUnknown
    else if !m.breakAllowed then emit span .breakOutside
  else if !m.continueAllowed then emit span .continueOutside
  else if !known then emit span .continueLabelUnknown
  return .mk (if isBreak then .breakStatement else .continueStatement) span []

def ifStatement : Parser Node := do
  let start ← position
  expectWord "if"
  let test ← condition g
  let yes ← g.statement false
  let no ← if ← eatWord "else" then pure [← g.statement false] else pure []
  return .mk .ifStatement (← spanFrom start) (test :: yes :: no)

def whileStatement : Parser Node := do
  let start ← position
  expectWord "while"
  let test ← condition g
  let body ← loopBody g
  return .mk .whileLoop (← spanFrom start) [test, body]

def doStatement : Parser Node := do
  let start ← position
  expectWord "do"
  let body ← loopBody g
  expectWord "while"
  let test ← condition g
  let _ ← eatStatementEnd
  return .mk .doLoop (← spanFrom start) [test, body]

def counterRest (first : List Node) : Parser (Kind × List Node) := do
  let test ← if ← eat .semi then pure []
    else do
      let test ← enclosed (expression g)
      expect .semi
      pure [test]
  let step ← if ← is .rparen then pure [] else pure [← enclosed (expression g)]
  return (.forStatement, first ++ test ++ step)

def overRest (left : Node) : Parser (Kind × List Node) := do
  let isOf ← isThe "of"
  advance
  let right ← if isOf then enclosed g.assign else enclosed (expression g)
  return (if isOf then .forOf else .forIn, [left, right])

def checkLoopVariables (isVar : Bool) (declaration : Node) : Parser Unit := do
  match declaration.parts with
  | [.mk _ _ (pattern :: value)] =>
    unless isVar || value.isEmpty do emit pattern.span .valueInLoopBinding
    let isTyped := pattern.parts.any fun part => part.kind = .typeClause
    if (← isTypescript) && isTyped then emit pattern.span .typeInLoopBinding
  | _ :: more =>
    for d in more do
      if let .mk _ _ (pattern :: _) := d then emit pattern.span .manyBindingsInLoop
  | [] => pure ()

def isResourceWord : Node → Bool
  | .mk (.name "using") _ _ => true
  | .mk .await _ [.mk (.name "using") _ _] => true
  | _ => false

/-- The resource of a loop over values, whose word was read as an expression. -/
def loopResource? (first : Node) : Parser (Option Node) := do
  unless (← isTypescript) && isResourceWord first && !(← isThe "of") do return none
  unless (← peekIsThe "of") || (← peekIsThe "in") do return none
  let name ← bindingName
  let span ← spanFrom first.start
  if ← isThe "in" then emit span .usingInForIn
  return some (.mk .variableDeclaration span [.mk .declarator span [name]])

def loopHead : Parser (Kind × List Node) := do
  if ← startsVariables then
    let isVar ← isThe "var"
    let declaration ← variableDeclaration g true
    if (← isThe "of") || (← isThe "in") then
      checkLoopVariables isVar declaration
      return ← overRest g declaration
    expect .semi
    return ← counterRest g [declaration]
  if ← eat .semi then return ← counterRest g []
  let first ← withMode ({ · with operatorIn := false }) (expression g)
  if let some declaration ← loopResource? first then return ← overRest g declaration
  if (← isThe "of") || (← isThe "in") then
    let isIn ← isThe "in"
    let left ← toPattern .assignment first
    if (← isTypescript) && isIn && (left.kind = .objectPattern || left.kind = .arrayPattern) then
      emit left.span .patternInForIn
    return ← overRest g left
  expect .semi
  counterRest g [first]

def forStatement : Parser Node := do
  let start ← position
  expectWord "for"
  let await_ ← if ← eatWord "await" then some <$> before else pure none
  expect .lparen
  let (kind, head) ← withMode ({ · with loopHead := true, awaitLoopHead := await_.isSome })
    (loopHead g)
  expect .rparen
  let body ← loopBody g
  if let some span := await_ then
    unless kind = .forOf do failAt span .awaitLoop
  return .mk kind (← spanFrom start) (head ++ [body])

def returnStatement : Parser Node := do
  let start ← position
  advance
  let report : Parser Unit := do
    unless (← mode).inFunction do emit (← spanFrom start) .returnOutside
  let value ← recover (do
    let value ← if ← isStatementEnd then pure [] else pure [← enclosed (expression g)]
    expectStatementEnd
    return value) fun issue => do
      report
      throw issue
  report
  return .mk .returnStatement (← spanFrom start) value

def throwStatement : Parser Node := do
  let start ← position
  advance
  if ← onNewLine then fail .breakAfterThrow
  let value ← enclosed (expression g)
  expectStatementEnd
  return .mk .throwStatement (← spanFrom start) [value]

def switchCase (seenDefault : Bool) : Parser (Node × Bool) := do
  let start ← position
  let isCase ← isThe "case"
  advance
  let test ← if isCase then pure [← enclosed (expression g)]
    else do
      if seenDefault then fail .repeatedDefault
      pure []
  expect .colon
  let body ← collect do
    if (← isEnd) || (← isThe "case") || (← isThe "default") || (← is .rbrace) then return none
    some <$> g.statement true
  return (.mk .switchCase (← spanFrom start) (test ++ body), seenDefault || !isCase)

def switchStatement : Parser Node := do
  let start ← position
  advance
  let subject ← condition g
  expect .lbrace
  let (cases, _) ← withMode ({ · with breakAllowed := true }) do
    loop (fun (acc, seen) => do
      if (← isThe "case") || (← isThe "default") then
        let (node, seen) ← switchCase g seen
        return .inl (node :: acc, seen)
      else return .inr (acc, seen)) (← budget) ([], false)
  expect .rbrace
  return .mk .switch (← spanFrom start) (subject :: cases.reverse)

def catchClause? : Parser (Option Node) := do
  let start ← position
  unless ← eatWord "catch" do return none
  let param ← if ← eat .lparen then do
      let pattern ← g.pattern
      let types ← if ← isTypescript then typeAnnotation? g else pure none
      expect .rparen
      pure [Node.mk pattern.kind pattern.span (pattern.parts ++ types.toList)]
    else pure []
  let body ← block g
  return some (.mk .catchClause (← spanFrom start) (param ++ [body]))

def finallyBlock? : Parser (Option Node) := do
  if ← eatWord "finally" then some <$> block g else return none

def tryStatement : Parser Node := do
  let start ← position
  advance
  let body ← block g
  let at_ ← position
  let handler ← catchClause? g
  let last ← finallyBlock? g
  if handler.isNone && last.isNone then emit ⟨at_, at_⟩ .expectedSemicolon
  return .mk .tryStatement (← spanFrom start) (body :: handler.toList ++ last.toList)

/-- A clause of a `try` without one is reported and skipped. -/
def strayClause : Parser Node := do
  let span ← here
  emit span .expectedSemicolon
  let skip (p : Parser (Option Node)) : Parser Unit := do
    let _ ← recover p fun _ => return none
  skip (catchClause? g)
  skip (finallyBlock? g)
  return .mk .expressionStatement span [.mk .invalid span []]

def withStatement : Parser Node := do
  let start ← position
  if ← isTypescript then emit (← here) .withStatement
  emit (← here) .withInStrict
  advance
  let subject ← condition g
  let body ← withMode ({ · with inFunction := true }) (g.statement false)
  return .mk .withStatement (← spanFrom start) [subject, body]

def labelledFunction : Parser Node := do
  let start ← position
  let isGenerator ← peekIs (.binary .mul)
  let node ← functionNode g start [] false false true
  emit node.span .labelledFunction
  if isGenerator then emit node.span .labelledGenerator
  return node

/-- The statement behind a label. A label that an enclosing statement has already is reported
behind it. -/
def labelled (label : Node) : Parser Node :=
  withMode ({ · with breakAllowed := true, usingAllowed := false }) do
    let name := label.name?.getD ""
    let outer := (← get).labels
    modify ({ · with labels := name :: outer })
    let body ← if ← isThe "function" then labelledFunction g else g.statement false
    for other in outer do
      if other == name then emit label.span (.labelRepeated name)
    modify ({ · with labels := outer })
    return .mk .labelled (← spanFrom label.start) [body]

/-- Ends a statement that is an expression. An operator that follows a whole expression is reported
and read. -/
def expressionEnd (start : Nat) (node : Node) : Parser Node := do
  if ← eatStatementEnd then return .mk .expressionStatement (← spanFrom start) [node]
  if (← token).isBinaryMark then
    emit (← here) .expectedSemicolon
    let whole ← g.binaryRest node 0
    return .mk .expressionStatement (← spanFrom start) [whole]
  fail .expectedStatementEnd

/-- A statement that starts with an expression: the expression itself, a statement with a label, or
a declaration that a plain word starts. -/
def expressionStatement (decorators : List Node) : Parser Node := do
  let start ← position
  let node ← enclosed (expression g)
  let some name := node.name? | return ← expressionEnd g start node
  if ← eat .colon then return ← labelled g node
  if name == "interface" && (← onNewLine) then
    emit node.span (.reservedName name)
    let _ ← eatStatementEnd
    return .mk .expressionStatement (← spanFrom start) [node]
  if ← isTypescript then
    if let some declaration ← namedDeclaration? g decorators node then return declaration
  if name == "enum" || name == "interface" then emit node.span (.reservedName name)
  if (← isTypescript) && ["public", "static", "abstract"].contains name then
    if ← eatWord "interface" then
      emit node.span .interfaceName
      return ← interfaceRest g start
  expressionEnd g start node

def awaitStatement (start : Nat) : Parser Node := do
  let span ← here
  advance
  if let some declaration ← resourceDeclaration? g start then return declaration
  let node ← enclosed (do g.binaryRest (← awaitRest g span) 0)
  let _ ← eat .semi
  return .mk .expressionStatement (← spanFrom start) [node]

/-- A statement that starts with a word which has a meaning only in front of another word. -/
def contextualStatement (declarations : Bool) (start : Nat) (decorators : List Node)
    (word : String) : Parser Node := do
  let next ← peek
  let plain := expressionStatement g decorators
  let namesNext := (← isTypescript) && next.token.isWord && !next.newline
  match word with
  | "let" => if declarations && followsLet next.token then variableDeclaration g false else plain
  | "using" =>
    unless declarations do return ← plain
    match ← resourceDeclaration? g start with
    | some declaration => return declaration
    | none => plain
  | "await" =>
    if declarations && next.token.isThe "using" then awaitStatement g start else plain
  | "interface" =>
    if namesNext then do
      advance
      interfaceRest g start
    else plain
  | "type" =>
    if namesNext then do
      advance
      aliasRest g start
    else plain
  | "enum" =>
    if namesNext then do
      advance
      enumRest g start
    else plain
  | "async" =>
    if next.token.isThe "function" && !next.newline then do
      advance
      functionNode g start decorators true false true
    else plain
  | _ => plain

def plainStatement (declarations : Bool) (start : Nat) (decorators : List Node) :
    Parser Node := do
  if (← isTypescript) && (← isThe "const") && (← peekIsThe "enum") then
    advance
    advance
    return ← enumRest g start
  let .word word true ← token |
    if ← is .lbrace then return ← withMode ({ · with usingAllowed := true }) (block g)
    if ← eat .semi then return .mk .empty (← spanFrom start) []
    expressionStatement g decorators
  match word with
  | "break" => jump true
  | "continue" => jump false
  | "debugger" =>
    advance
    expectStatementEnd
    return .mk .debugger (← spanFrom start) []
  | "do" => doStatement g
  | "for" => forStatement g
  | "function" =>
    unless declarations do emit (← here) .declarationNotAllowed
    functionNode g start decorators false false true
  | "class" =>
    unless declarations do emit (← here) .declarationNotAllowed
    classNode g start decorators .classDeclaration true false
  | "if" => ifStatement g
  | "return" => returnStatement g
  | "switch" => switchStatement g
  | "throw" => throwStatement g
  | "catch" | "finally" => strayClause g
  | "try" => tryStatement g
  | "with" => withStatement g
  | "while" => whileStatement g
  | "var" => variableDeclaration g false
  | "const" =>
    if declarations then variableDeclaration g false else expressionStatement g decorators
  | _ => contextualStatement g declarations start decorators word

def importExpression : Parser Node := do
  let start ← position
  let node ← expression g
  let _ ← eatStatementEnd
  return .mk .expressionStatement (← spanFrom start) [node]

/-- A statement inside a block or behind a keyword; `declarations` tells whether it may declare
something. -/
def statementNode (declarations : Bool) : Parser Node := do
  let start ← position
  let decorators ← decorators g true
  if ← isThe "import" then
    if (← peekIs .lparen) || (← peekIs .dot) then return ← importExpression g
    fail .importMisplaced
  if ← isThe "export" then fail .importMisplaced
  plainStatement g declarations start decorators

end

end Parser
end Syntax
end CastLint
