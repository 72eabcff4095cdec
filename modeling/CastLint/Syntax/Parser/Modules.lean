import CastLint.Syntax.Parser.Statements

/-! The items of a module: imports, exports and statements. -/

namespace CastLint
namespace Syntax
namespace Parser

def sourceText : Parser Unit := do
  needToken
  match ← token with
  | .string _ _ => advance
  | _ => unexpected "a string literal"

def transferName : Parser Node := do
  let start ← position
  match ← token with
  | .string value _ =>
    advance
    return .mk (.plainKey value) (← spanFrom start) []
  | .word _ _ => anyName
  | _ => unexpected "identifier or string"

section

variable (g : Grammar)

def importAttributes : Parser (List Node) := do
  if (← isTypescript) && !(← onNewLine) then
    if (← isThe "assert") || (← isThe "with") then
      advance
      return [← objectNode g]
  return []

def fromClause : Parser (List Node) := do
  expectWord "from"
  sourceText
  let attributes ← importAttributes g
  expectStatementEnd
  return attributes

/-- What `type` in front of other words means: `typed` if it marks the name `name` as a type, and
`plain` if it is the name itself, which has been renamed. -/
inductive TypeWord where
  | typed (name : Node) (renamed : Bool)
  | plain

/-- The words behind `type` in a list, where `target` reads the new name of something renamed. -/
def typeWord (target : Parser Node) : Parser TypeWord := do
  let second ← anyName
  unless second.name? = some "as" do return .typed second false
  unless ← isAnyWord do return .typed second true
  let third ← target
  if third.name? = some "as" && (← isAnyWord) then
    let _ ← target
    return .typed second true
  return .plain

def importSpecifier (typeOnly : Bool) : Parser Unit := do
  let name ← transferName
  let rename : Parser Bool := do
    if ← eatWord "as" then
      let _ ← bindingName
      return true
    else return false
  match name.kind with
  | .plainKey text => unless ← rename do failAt name.span (.importedText text)
  | _ =>
    if (← isTypescript) && name.name? = some "type" && (← isAnyWord) then
      match ← typeWord bindingName with
      | .typed _ renamed =>
        if typeOnly then emit name.span .typeOnTypeImport
        unless renamed do
          let _ ← rename
      | .plain => pure ()
    else
      let _ ← rename

def transferList {α : Type} (item : Parser α) : Parser (List α) := do
  expect .lbrace
  let found ← loop (fun acc => do
    if (← is .rbrace) || (← isEnd) then return .inr acc
    let acc := (← item) :: acc
    unless ← is .rbrace do expect .comma
    return .inl acc) (← budget) []
  expect .rbrace
  return found.reverse

def importEquals (start : Nat) : Parser Node := do
  expect (.assign none)
  if (← isThe "require") && (← peekIs .lparen) then
    advance
    advance
    sourceText
    expect .rparen
  else
    let _ ← entityName (identifier false)
  expectStatementEnd
  return .mk .importDeclaration (← spanFrom start) []

/-- What stands in front of the names of an import: a plain import, one of types, or one that does
not run the module at once. -/
inductive ImportPhase where
  | plain | types | source | deferred
deriving DecidableEq

def importPhase (typescript : Bool) (word : String) : ImportPhase :=
  match word with
  | "type" => if typescript then .types else .plain
  | "source" => .source
  | "defer" => .deferred
  | _ => .plain

def defaultImport : Parser (ImportPhase × Option Node) := do
  let name ← bindingName
  let phase := importPhase (← isTypescript) (name.name?.getD "")
  if phase = .plain then return (.plain, some name)
  if (← isOp .mul) || (← is .lbrace) then return (phase, none)
  unless ← isReference do return (.plain, some name)
  if !(← isThe "from") || (← peekIsThe "from") then return (phase, some (← bindingName))
  if phase = .types && (← peekIs (.assign none)) then return (phase, some (← anyName))
  return (.plain, some name)

def importDeclaration : Parser Node := do
  let start ← position
  if (← peekIs .dot) || (← peekIs .lparen) then return ← importExpression g
  expectWord "import"
  if let .string _ _ ← token then
    advance
    let attributes ← importAttributes g
    expectStatementEnd
    return .mk .importDeclaration (← spanFrom start) attributes
  let (phase, name) ← if ← isReference then defaultImport else pure (.plain, none)
  if name.isSome then
    if (← isTypescript) && (← is (.assign none)) then return ← importEquals start
    unless ← isThe "from" do expect .comma
  if phase ≠ .source && (← eatOp .mul) then
    expectWord "as"
    let _ ← bindingName
  else if (phase = .plain || phase = .types) && (← is .lbrace) then
    let _ ← transferList (importSpecifier (phase = .types))
  let attributes ← fromClause g
  return .mk .importDeclaration (← spanFrom start) attributes

def exportSpecifier (typeOnly : Bool) : Parser Node := do
  let name ← transferName
  let rename : Parser Unit := do
    if ← eatWord "as" then
      let _ ← transferName
  if (← isTypescript) && name.name? = some "type" && (← isAnyWord) then
    match ← typeWord anyName with
    | .typed exported renamed =>
      if typeOnly then emit name.span .typeOnTypeExport
      unless renamed do rename
      return exported
    | .plain => return name
  rename
  return name

def isUnexportable (word : String) : Bool := isKeyword word || word == "package"

def exportList (start : Nat) (typeOnly : Bool) : Parser Node := do
  let names ← transferList (exportSpecifier typeOnly)
  if ← isThe "from" then
    let attributes ← fromClause g
    return .mk .exportDeclaration (← spanFrom start) attributes
  for name in names do
    match name.kind with
    | .name text => if isUnexportable text then emit name.span (.exportWithoutSource text)
    | _ => emit name.span .exportedText
  let _ ← eatStatementEnd
  return .mk .exportDeclaration (← spanFrom start) []

def exportNames (start : Nat) (typeOnly : Bool) : Parser Node := do
  if ← eatOp .mul then
    if ← eatWord "as" then
      let _ ← transferName
    let attributes ← fromClause g
    return .mk .exportDeclaration (← spanFrom start) attributes
  exportList g start typeOnly

/-- Decorators behind `export`, which cannot also stand in front of it. -/
def exportDecorators (before : List Node) : Parser (List Node) := do
  unless ← is .atSign do return before
  let start ← position
  let after ← decorators g false
  unless before.isEmpty do failAt (← spanFrom start) .decoratorsTwice
  return after

def exportDefault (start : Nat) (decorators : List Node) : Parser Node := do
  let decorators ← exportDecorators g decorators
  let inner ← position
  let wrap (node : Node) : Parser Node := do
    return .mk .exportDeclaration (← spanFrom start) [node]
  let next ← peek
  if ← isTypescript then
    if (← isThe "abstract") && next.token.isThe "class" && !next.newline then
      advance
      return ← wrap (← classNode g inner decorators .classDeclaration false true)
    if (← isThe "abstract") && next.token.isThe "interface" then
      emit (← here) .abstractInterface
      advance
    if ← isThe "interface" then
      let inner ← position
      advance
      return ← wrap (← interfaceRest g inner)
  if ← isThe "class" then
    return ← wrap (← classNode g inner decorators .classDeclaration false false)
  if (← isThe "async") && next.token.isThe "function" && !next.newline then
    advance
    return ← wrap (← functionNode g inner decorators true false false)
  if ← isThe "function" then
    return ← wrap (← functionNode g inner decorators false false false)
  let value ← enclosed g.assign
  expectStatementEnd
  wrap value

def typeExport? (start : Nat) (decorators : List Node) : Parser (Option Node) := do
  unless ← isTypescript do return none
  let inner ← position
  let wrap (node : Node) : Parser (Option Node) := do
    return some (.mk .exportDeclaration (← spanFrom start) [node])
  if ← eatWord "declare" then
    if let some node ← declared? g inner decorators then return ← wrap node
  if let .word word _ ← token then
    let here_ ← position
    if let some node ← attempt (wordDeclaration? g here_ decorators word true) then
      return ← wrap node
  if ← eatWord "import" then
    if (← isThe "type") && (← peekIsReference) then advance
    let _ ← anyName
    return some (← importEquals start)
  if ← eat (.assign none) then
    let value ← expression g
    expectStatementEnd
    return ← wrap value
  if ← eatWord "as" then
    expectWord "namespace"
    let _ ← identifier false
    expectStatementEnd
    return some (.mk .exportDeclaration (← spanFrom start) [])
  return none

def exportDeclaration (decorators : List Node) : Parser Node := do
  let start ← position
  expectWord "export"
  needToken
  if let some node ← typeExport? g start decorators then return node
  if (← isTypescript) && (← isThe "type") then
    advance
    let _ ← exportDecorators g decorators
    return ← exportNames g start true
  if ← eatWord "default" then return ← exportDefault g start decorators
  let decorators ← exportDecorators g decorators
  let inner ← position
  let wrap (node : Node) : Parser Node := do
    return .mk .exportDeclaration (← spanFrom start) [node]
  let next ← peek
  if ← isThe "class" then
    wrap (← classNode g inner decorators .classDeclaration true false)
  else if (← isThe "async") && next.token.isThe "function" && !next.newline then
    advance
    wrap (← functionNode g inner decorators true false true)
  else if ← isThe "function" then
    wrap (← functionNode g inner decorators false false true)
  else if (← isTypescript) && (← isThe "const") && next.token.isThe "enum" then
    advance
    advance
    wrap (← enumRest g inner)
  else if ← startsVariables then wrap (← variableDeclaration g false)
  else exportNames g start false

def moduleItem : Parser Node := do
  let start ← position
  let decorators ← decorators g true
  if ← isThe "import" then importDeclaration g
  else if ← isThe "export" then exportDeclaration g decorators
  else plainStatement g true start decorators

end

end Parser
end Syntax
end CastLint
