import CastLint.Syntax.Parser.Markup

/-! Declarations: variables, and those that only types need, which are enumerations, interfaces,
aliases and namespaces. -/

namespace CastLint
namespace Syntax
namespace Parser

def followsLet (t : Token) : Bool :=
  match t with
  | .word _ _ => !t.isKeyword
  | .mark m => m = .lbrace || m = .lbracket
  | _ => false

def startsVariables : Parser Bool := do
  if (← isThe "const") || (← isThe "var") then return true
  if ← isThe "let" then return followsLet (← peek).token else return false

inductive VariableWord where
  | var | lexical | const
deriving DecidableEq

section

variable (g : Grammar)

def declarator (word : VariableWord) (inLoop : Bool) : Parser Node := do
  let start ← position
  let pattern ← if word ≠ .var && (← isThe "let") then blockBindingName else g.pattern
  let ts ← isTypescript
  if ts && pattern.isName then
    let _ ← eat .bang
  let types ← if ts then typeAnnotation? g else pure none
  let pattern := if types.isNone then pattern
    else Node.mk pattern.kind pattern.span (pattern.parts ++ types.toList)
  if inLoop && ((← isThe "in") || (← isThe "of")) then
    return .mk .declarator (← spanFrom start) [pattern]
  if ← eat (.assign none) then
    let value ← g.assign
    return .mk .declarator (← spanFrom start) [pattern, value]
  let span ← spanFrom start
  unless (← mode).inDeclare do
    if word = .const && !inLoop then emit span .constWithoutValue
    else unless pattern.isName do failAt span .patternWithoutValue
  return .mk .declarator span [pattern]

/-- Declarators with commas between them. A list that ends behind its comma, or behind the word at
`keyword`, is reported. -/
def declarators (word : VariableWord) (keyword : Span) (inLoop : Bool) : Parser (List Node) := do
  let found ← loop (fun acc => do
    if (← is .semi) || (← isEnd) then
      let last ← before
      emit (if last = keyword then ⟨last.stop, last.stop⟩ else last) .trailingComma
      return .inr acc
    let acc := (← declarator g word inLoop) :: acc
    if ← eat .comma then return .inl acc else return .inr acc) (← budget) []
  return found.reverse

/-- The rest of a declaration that does not end where it should is skipped up to the end of a
statement. -/
def skipToStatementEnd : Parser Unit := do
  loop (fun _ => do
    if ← eatStatementEnd then return .inr ()
    advance
    match ← token with
    | .bad _ => return .inr ()
    | _ => return .inl ()) (← budget) ()

def variableDeclaration (inLoop : Bool) : Parser Node := do
  let start ← position
  let word ← if ← isThe "var" then pure VariableWord.var
    else if ← isThe "const" then pure .const
    else pure .lexical
  advance
  let keyword ← spanFrom start
  let noName ← if (← isTypescript) && inLoop && ((← isThe "in") || (← isThe "of")) then
      lookAhead do
        advance
        let _ ← g.assign
        expect .rparen
        return true
    else pure false
  if noName then
    emit ⟨keyword.stop, keyword.stop⟩ .emptyDeclaration
    return .mk .variableDeclaration (← spanFrom start) []
  let found ← withMode ({ · with operatorIn := word ≠ .var || !inLoop })
    (declarators g word keyword inLoop)
  unless inLoop do
    unless ← eatStatementEnd do
      emit (← here) .expectedSemicolon
      let _ ← recover (some <$> expression g) fun _ => return none
      skipToStatementEnd
  return .mk .variableDeclaration (← spanFrom start) found

def checkResource (span : Span) (declarator : Node) : Parser Unit := do
  unless declarator.parts.head?.any Node.isName do emit span .usingPattern
  if declarator.parts.length < 2 then emit span .usingWithoutValue

/-- Resources that the enclosing block gives back at its end, if the current word declares some. -/
def resourceDeclaration? (start : Nat) : Parser (Option Node) := do
  let next ← peek
  if next.newline || !next.token.isReference then return none
  advance
  let found ← declarators g .var ⟨0, 0⟩ false
  let span ← spanFrom start
  unless ← isTypescript do emit span .usingDisabled
  unless (← mode).usingAllowed do emit span .usingNotAllowed
  for d in found do checkResource span d
  expectStatementEnd
  return some (.mk .variableDeclaration (← spanFrom start) found)

/-- A member of an enumeration, and whether a comma follows it, which is gone over. A token that is
neither a value nor a comma is reported and stands for a comma. -/
def enumMember : Parser (Node × Bool) := do
  let start ← position
  needToken
  let name ← match ← token with
    | .string _ _ =>
      advance
      pure (Node.mk .literal (← spanFrom start) [])
    | .number _ =>
      advance
      emit (← spanFrom start) .enumNumeric
      pure (Node.mk .literal (← spanFrom start) [])
    | .mark .lbracket =>
      advance
      let _ ← expression g
      emit (← spanFrom start) .enumComputed
      expect .rbracket
      pure (Node.mk .computedKey (← spanFrom start) [])
    | _ => anyName
  if ← eat (.assign none) then
    let value ← g.assign
    return (.mk .enumMember (← spanFrom start) [name, value], ← eat .comma)
  let node := Node.mk .enumMember (← spanFrom start) [name]
  if (← is .comma) || (← is .rbrace) then return (node, ← eat .comma)
  let stray ← position
  advance
  emit ⟨stray, stray⟩ .expectedSemicolon
  return (node, true)

def enumRest (start : Nat) : Parser Node := do
  let name ← anyName
  expect .lbrace
  let members ← loop (fun acc => do
    if ← is .rbrace then return .inr acc
    let (member, separated) ← enumMember g
    unless separated || (← is .rbrace) do emit (← here) (.expected "," (← token).text)
    return .inl (member :: acc)) (← budget) []
  expect .rbrace
  return .mk .enumDeclaration (← spanFrom start) (name :: members.reverse)

def interfaceRest (start : Nat) : Parser Node := do
  let name ← anyName
  if builtinTypes.contains (name.name?.getD "") then emit name.span .interfaceName
  let types ← typeParameters? g ⟨true, false⟩
  let bases ← if ← eatWord "extends" then heritage g else pure []
  if ← isThe "extends" then
    emit (← here) .repeatedExtends
    let _ ← loop (fun _ => do
      if (← isEnd) || (← is .lbrace) then return .inr ()
      advance
      return .inl ()) (← budget) ()
  let members ← inType (typeMembers g)
  return .mk .interface (← spanFrom start) (name :: types ++ bases ++ members)

def aliasRest (start : Nat) : Parser Node := do
  let name ← anyName
  let types ← typeParameters? g ⟨true, false⟩
  let type ← inType do
    unless ← eat (.assign none) do fail (.unexpected (← token).className "=")
    g.type
  expectStatementEnd
  return .mk .typeAlias (← spanFrom start) (name :: types ++ [type])

def namespaceBlock : Parser Node := do
  let start ← position
  expect .lbrace
  let items ← blockBody g.moduleItem
  return .mk .block (← spanFrom start) items

def namespaceRest (start : Nat) : Parser Node := do
  let name ← anyName
  let _ ← collect do
    if ← eat .dot then some <$> anyName else return none
  let body ← namespaceBlock g
  return .mk .namespaceDeclaration (← spanFrom start) [name, body]

def ambientModule (start : Nat) : Parser Node := do
  match ← token with
  | .string _ _ => advance
  | t => if t.isThe "global" then advance else unexpected "global or a string literal"
  if ← is .lbrace then
    let body ← namespaceBlock g
    return .mk .namespaceDeclaration (← spanFrom start) [body]
  expectStatementEnd
  return .mk .namespaceDeclaration (← spanFrom start) []

/-- A declaration that starts with the word `word`, which is the current token if `pending` holds
and has been read otherwise. -/
def wordDeclaration? (start : Nat) (decorators : List Node) (word : String) (pending : Bool) :
    Parser (Option Node) := do
  let skip : Parser Unit := if pending then advance else pure ()
  match word with
  | "abstract" =>
    if pending || ((← isThe "class") && !(← onNewLine)) then
      skip
      return some (← classNode g start decorators .classDeclaration true true)
    else return none
  | "enum" =>
    if pending || (← isReference) then
      skip
      return some (← enumRest g start)
    else return none
  | "interface" =>
    if pending || (← isReference) then
      skip
      return some (← interfaceRest g start)
    else return none
  | "module" =>
    if ← onNewLine then return none
    skip
    match ← token with
    | .string _ _ => return some (← ambientModule g start)
    | _ => if pending || (← isReference) then return some (← namespaceRest g start) else return none
  | "namespace" =>
    if pending || (← isReference) then
      skip
      return some (← namespaceRest g start)
    else return none
  | "type" =>
    if pending || (!(← onNewLine) && (← isReference)) then
      skip
      return some (← aliasRest g start)
    else return none
  | _ => return none

def declared? (start : Nat) (decorators : List Node) : Parser (Option Node) := do
  if (← mode).inDeclare then emit (← spanFrom start) .declareInDeclare
  withMode ({ · with inDeclare := true }) do
    if ← isThe "function" then return some (← functionNode g start decorators false false true)
    if ← isThe "class" then
      return some (← classNode g start decorators .classDeclaration true false)
    if (← isThe "const") && (← peekIsThe "enum") then
      advance
      advance
      return some (← enumRest g start)
    if (← isThe "const") || (← isThe "var") || (← isThe "let") then
      return some (← variableDeclaration g false)
    if ← isThe "global" then return some (← ambientModule g start)
    match ← token with
    | .word word _ => wordDeclaration? g start decorators word true
    | _ => return none

def namedDeclaration? (decorators : List Node) (name : Node) : Parser (Option Node) := do
  match name.name? with
  | some "declare" => declared? g name.start decorators
  | some "global" =>
    if ← is .lbrace then
      let body ← namespaceBlock g
      return some (.mk .namespaceDeclaration (← spanFrom name.start) [name, body])
    else return none
  | some word => wordDeclaration? g name.start decorators word false
  | none => return none

end

end Parser
end Syntax
end CastLint
