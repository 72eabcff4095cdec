import CastLint.Syntax.Parser.Basic

/-! Types: references with their arguments, unions, function types, object types and the rest of
what can stand behind a colon or behind `as`. -/

namespace CastLint
namespace Syntax
namespace Parser

def typeStarts : String :=
  "an identifier, void, yield, null, await, break, a string literal, a numeric literal, true, " ++
  "false, `, -, import, this, typeof, \x7b, [, ("

def delimited (isTerminator : Parser Bool) (element : Parser Node) : Parser (List Node) := do
  let found ← loop (fun acc => do
    if ← isTerminator then return .inr acc
    let node ← element
    let acc := node :: acc
    if ← eat .comma then return .inl acc
    if ← isTerminator then return .inr acc
    expect .comma
    return .inl acc) (← budget) []
  return found.reverse

/-- A left angle bracket that was read together with a second one is split off. -/
def splitAngle : Parser Unit := do
  if ← isOp .shl then
    modify fun s =>
      let l := s.lexeme
      let next : Cursor := ⟨'<' :: l.next.rest, l.next.offset - 1⟩
      { s with lexeme := { l with
        token := .mark (.binary .lt), span := ⟨l.span.start, l.span.start + 1⟩, next := next } }

/-- Angle brackets that were read one by one inside a type are read again as one operator. -/
def joinAngles : Parser Unit := do
  let again (c : Char) : Parser Unit := modify fun s =>
    let l := s.lexeme
    let cursor : Cursor := ⟨c :: l.next.rest, l.span.start⟩
    let fresh := cursor.lex s.lexing false
    { s with lexeme := { fresh with newline := l.newline, issues := [] } }
  if ← isOp .lt then again '<'
  else if ← isOp .gt then again '>'

section

variable (g : Grammar)

/-- Type arguments in angle brackets. The token behind them belongs to the surrounding text. -/
def typeArguments : Parser Node := do
  let start ← position
  let args ← inType do
    splitAngle
    expect (.binary .lt)
    delimited (isOp .gt) g.type
  expect (.binary .gt)
  let span ← spanFrom start
  if args.isEmpty then emit span .emptyTypeArguments
  return .mk .typeArguments span args

def typeAnnotation? : Parser (Option Node) := do
  if ← is .colon then
    inType do
      advance
      let type ← g.type
      return some (.mk .typeClause type.span [type])
  else return none

/-- A name that dots can qualify, in which `next` reads a name behind a dot. A dot without a name
behind it is reported and ends it. -/
def entityName (next : Parser Node) : Parser Node := do
  let start ← position
  let first ← anyName
  if first.name? = some "void" then emit (← spanFrom (← position)) .expectedSemicolon
  loop (fun entity => do
    if ← eat .dot then
      unless (← isAnyWord) || (← is .hash) do
        emit (← spanFrom (← position)) .expectedIdentifier
        return .inr entity
      let right ← next
      return .inl (.mk .qualifiedName (← spanFrom start) [entity, right])
    else return .inr entity) (← budget) first

/-- Whether the word of the current token is a modifier, which it is if something that it can
modify follows on the same line; the modifier is then gone over. -/
def modifier? (allowed : List String) (stopAtStaticBlock : Bool) : Parser (Option String) := do
  unless ← isTypescript do return none
  match ← token with
  | .bad found => advance; throw found
  | .eof => failEnd
  | .word name _ =>
    unless allowed.contains name do return none
    if stopAtStaticBlock && name == "static" && (← peekIs .lbrace) then return none
    attempt do
      advance
      if ← onNewLine then return none
      match ← token with
      | .word _ _ | .string _ _ | .number _ | .bigint _ => return some name
      | .mark m =>
        if m = .lbracket || m = .lbrace || m = .binary .mul || m = .ellipsis || m = .hash then
          return some name
        else return none
      | _ => return none
  | _ => return none

def parameterModifier : Parser Bool := do
  unless ← isTypescript do return false
  let isOne := ["public", "protected", "private", "readonly"].contains (← wordText)
  if isOne && (← isAnyWord) then
    match (← peek).token with
    | .word _ _ | .mark .lbrace | .mark .lbracket =>
      let _ ← modifier? ["public", "protected", "private", "readonly"] false
      return true
    | _ => return false
  else return false

def typeReference : Parser Node := do
  let start ← position
  let modified ← parameterModifier
  let name ← entityName anyName
  let args ← if !(← onNewLine) && ((← isOp .lt) || (← isOp .shl)) then
      pure [← typeArguments g]
    else pure []
  if modified then emit (← spanFrom start) .parameterProperty
  return .mk .typeReference (← spanFrom start) (name :: args)

/-- The words in front of a type parameter, of which only some can stand there. -/
structure ParameterWords where
  /-- The ways in which a type can vary are declared. -/
  variance : Bool
  constant : Bool

def ParameterWords.fault? (allowed : ParameterWords) (seen : List String) (word : String) :
    Option Fault :=
  match word with
  | "const" => if allowed.constant then none else some (.modifierOfFunctions word)
  | "in" | "out" =>
    if !allowed.variance then some (.modifierOfTypes word)
    else if seen.contains word then some (.modifierRepeated word)
    else if word == "in" && seen.contains "out" then some (.modifierOrder "in" "out")
    else none
  | _ => some (.modifierOnTypeParameter word)

def typeParameter (allowed : ParameterWords) : Parser Node := do
  let start ← position
  let _ ← loop (fun seen => do
    match ← modifier? ["public", "private", "protected", "readonly", "abstract", "const",
      "override", "in", "out"] false with
    | some word =>
      if let some fault := allowed.fault? seen word then emit (← before) fault
      return .inl (word :: seen)
    | none => return .inr seen) (← budget) []
  let name ← anyName
  let bound ← if ← eatWord "extends" then pure [← g.type] else pure []
  let default ← if ← eat (.assign none) then pure [← g.type] else pure []
  return .mk .typeParameters (← spanFrom start) (name :: bound ++ default)

def typeParameters (allowed : ParameterWords) : Parser Node := inType do
  let start ← position
  unless ← isOp .lt do unexpected "< (jsx tag start)"
  advance
  let params ← delimited (isOp .gt) (typeParameter g allowed)
  expect (.binary .gt)
  return .mk .typeParameters (← spanFrom start) params

def typeParameters? (allowed : ParameterWords) : Parser (List Node) := do
  if ← isOp .lt then return [← typeParameters g allowed] else return []

def functionTypeParameters? : Parser (List Node) := typeParameters? g ⟨false, true⟩

def returnType (mark : Mark) : Parser Node := inType do
  let start ← position
  unless ← eat mark do fail (.expected mark.text (← token).className)
  let asserts := (← isThe "asserts") && (← peekIsReference)
  if asserts then advance
  let peeked ← peek
  let isClaim := (← isReference) && peeked.token.isThe "is" && !peeked.newline
  if asserts || isClaim then
    let name ← anyName
    let type ← if isClaim then do
        advance
        pure [← g.type]
      else pure []
    return .mk .predicateType (← spanFrom start) (name :: type)
  else g.type

/-- A pattern with its default, if one follows. Where only declarations stand there is no default. -/
def defaulted (start : Nat) (left : Node) : Parser Node := do
  unless ← eat (.assign none) do return left
  let right ← withMode ({ · with operatorIn := true }) g.assign
  if (← mode).inDeclare then emit (← spanFrom start) .valueWithoutBody
  return .mk .defaultPattern (← spanFrom start) [left, right]

/-- The type of a pattern, if one follows. It cannot follow a default. -/
def typed (pattern : Node) : Parser Node := do
  let some type ← typeAnnotation? g | return pattern
  let span ← spanFrom pattern.start
  if pattern.kind = .defaultPattern then emit span .typeBehindValue
  return .mk pattern.kind span (pattern.parts ++ [type])

def parameterPattern : Parser Node := do
  let start ← position
  let modified ← parameterModifier
  let left ← defaulted g (← position) (← g.pattern)
  let ts ← isTypescript
  let optional ← if ts then eat .question else pure false
  if optional && left.kind = .defaultPattern && !(← mode).inDeclare then
    failAt (← before) .patternOptional
  let left ← if ts then typed g left else pure left
  if optional && left.kind ≠ .defaultPattern && (← is (.assign none)) then
    emit left.span .optionalWithValue
  let node ← defaulted g start left
  if modified then emit (← spanFrom start) .parameterProperty
  return node

def parameters (decorators : Parser (List Node)) : Parser (List Node) := do
  let found ← loop (fun (acc, rest) => do
    if ← is .rparen then return .inr acc
    if let some span := rest then emit span .restParameterNotLast
    let start ← position
    let decorators ← decorators
    let inner ← position
    let (pattern, rest) ← if ← eat .ellipsis then do
        let pattern ← g.pattern
        let pattern ← if ← eat (.assign none) then do
            let right ← g.assign
            emit pattern.span .restWithValue
            pure (Node.mk .defaultPattern ⟨pattern.start, right.stop⟩ [pattern, right])
          else pure pattern
        let types ← if ← isTypescript then typeAnnotation? g else pure none
        let span ← spanFrom inner
        if (← isTypescript) && (← is .question) then
          advance
          emit (← before) .restOptional
        pure (Node.mk .restPattern span (pattern :: types.toList), some span)
      else do
        pure (← parameterPattern g, rest)
    let acc := Node.mk .parameter (← spanFrom start) (decorators ++ [pattern]) :: acc
    unless ← is .rparen do
      expect .comma
      if pattern.kind = .restPattern && (← is .rparen) then emit (← before) .commaAfterRest
    return .inl (acc, rest)) (← budget) ([], none)
  return found.reverse

def signatureParameters : Parser (List Node) := do
  let params ← parameters g g.decorators
  for p in params do
    match p.parts.getLast? with
    | some pattern =>
      if pattern.kind = .defaultPattern then
        unexpected ("an identifier, [ for an array pattern, \x7b for an object patter or ... " ++
          "for a rest pattern")
    | none => pure ()
  expect .rparen
  return params

def functionType (isFunction : Bool) : Parser Node := do
  let start ← position
  unless isFunction do
    let _ ← eatWord "abstract"
    expectWord "new"
  let types ← functionTypeParameters? g
  expect .lparen
  let params ← signatureParameters g
  let result ← returnType g .arrow
  return .mk .functionType (← spanFrom start) (params ++ types ++ [result])

/-- A parenthesis that opens parameters and no type. -/
def opensParameters : Parser Bool := lookAhead do
  advance
  if (← is .rparen) || (← is .ellipsis) then return true
  let _ ← parameterModifier
  let started ← if ← isAnyWord then do
      advance
      pure true
    else if (← is .lbrace) || (← is .lbracket) then do
      let _ ← g.pattern
      pure true
    else pure false
  unless started do return false
  if (← is .colon) || (← is .comma) || (← is .question) || (← is (.assign none)) then return true
  if ← eat .rparen then is .arrow else return false

def operands (op : BinaryOp) (kind : Kind) (element : Parser Node) : Parser Node := do
  let start ← position
  let _ ← eatOp op
  let first ← element
  unless ← isOp op do return first
  let more ← collect do
    if ← eatOp op then some <$> element else return none
  return .mk kind (← spanFrom start) (first :: more)

def plainType : Parser Node := do
  if (← isOp .lt) || ((← is .lparen) && (← opensParameters g)) then functionType g true
  else if (← isThe "new") || ((← isThe "abstract") && (← peekIsThe "new")) then functionType g false
  else operands .bitOr .unionType (operands .bitAnd .intersectionType g.typeOperator)

def typeNode : Parser Node := withMode ({ · with plainTypes := false }) do
  let start ← position
  let check ← plainType g
  if ← onNewLine then return check
  unless ← eatWord "extends" do return check
  let bound ← withMode ({ · with plainTypes := true }) (plainType g)
  expect .question
  let yes ← g.type
  expect .colon
  let no ← g.type
  return .mk .conditionalType (← spanFrom start) [check, bound, yes, no]

def memberEnd : Parser Unit := do
  unless ← eat .comma do expectStatementEnd

def indexSignature? (start : Nat) : Parser (Option Node) := do
  unless ← is .lbracket do return none
  let isIndex ← lookAhead do
    advance
    unless ← isReference do return false
    advance
    return (← is .colon) || (← is .comma)
  unless isIndex do return none
  advance
  let name ← anyName
  if ← eat .comma then emit name.span .indexParameters else expect .colon
  let key ← inType g.type
  expect .rbracket
  let type ← typeAnnotation? g
  memberEnd
  return some (.mk .indexSignature (← spanFrom start) (name :: key :: type.toList))

def memberKey : Parser Node := do
  let start ← position
  match ← token with
  | .mark .lbracket =>
    advance
    let key ← withMode ({ · with inType := false, operatorIn := true }) g.assign
    expect .rbracket
    return .mk .computedKey (← spanFrom start) [key]
  | .string _ _ | .number _ => g.memberOrNew
  | .mark .hash =>
    let name ← privateName
    emit name.span .privateInInterface
    return name
  | _ => anyName

def typeMember : Parser Node := do
  let start ← position
  let signature : Parser (List Node) := do
    let types ← functionTypeParameters? g
    expect .lparen
    let params ← signatureParameters g
    let result ← if ← is .colon then pure [← returnType g .colon] else pure []
    memberEnd
    return params ++ types ++ result
  if (← is .lparen) || (← isOp .lt) then
    return .mk .typeMember (← spanFrom start) (← signature)
  let peeked := (← peek).token
  if (← isThe "new") && (peeked = .mark .lparen || peeked = .mark (.binary .lt)) then
    advance
    let parts ← signature
    return .mk .typeMember (← spanFrom start) parts
  let isReadonly := (← modifier? ["readonly"] false).isSome
  if let some index ← indexSignature? g start then return index
  let accessor ← attempt do
    if isReadonly then fail .readonlyAccessor
    let isGetter ← eatWord "get"
    unless isGetter do expectWord "set"
    let key ← memberKey g
    expect .lparen
    let parts ← if isGetter then do
        expect .rparen
        pure (← typeAnnotation? g).toList
      else do
        let params ← signatureParameters g
        if params.isEmpty then fail .setterParameterRequired
        pure params
    memberEnd
    return some (Node.mk .typeMember (← spanFrom start) (key :: parts))
  if let some node := accessor then return node
  let key ← memberKey g
  let _ ← eat .question
  if (← is .lparen) || (← isOp .lt) then
    if isReadonly then fail .readonlyMethod
    let parts ← signature
    return .mk .typeMember (← spanFrom start) (key :: parts)
  else
    let type ← typeAnnotation? g
    memberEnd
    return .mk .typeMember (← spanFrom start) (key :: type.toList)

def typeMembers : Parser (List Node) := do
  expect .lbrace
  let members ← collect do
    if ← is .rbrace then return none else some <$> typeMember g
  expect .rbrace
  return members

def opensMappedType : Parser Bool := lookAhead do
  advance
  if (← isOp .add) || (← isOp .sub) then
    advance
    return ← isThe "readonly"
  if ← isThe "readonly" then advance
  unless ← eat .lbracket do return false
  unless ← isReference do return false
  advance
  isThe "in"

def mappedType : Parser Node := do
  let start ← position
  expect .lbrace
  if (← isOp .add) || (← isOp .sub) then
    advance
    expectWord "readonly"
  else let _ ← eatWord "readonly"
  expect .lbracket
  let name ← anyName
  unless ← eatWord "in" do fail (.unexpected (← token).className "in")
  let source ← g.type
  let rename ← if ← eatWord "as" then pure [← g.type] else pure []
  expect .rbracket
  if (← isOp .add) || (← isOp .sub) then
    advance
    expect .question
  else let _ ← eat .question
  let type ← typeAnnotation? g
  expectStatementEnd
  expect .rbrace
  return .mk .mappedType (← spanFrom start) (name :: source :: rename ++ type.toList)

def tupleElement : Parser Node := do
  let start ← position
  let _ ← attempt do
    let _ ← eat .ellipsis
    let _ ← anyName
    let _ ← eat .question
    expect .colon
    return some ()
  if ← eat .ellipsis then
    let type ← g.type
    return .mk .restType (← spanFrom start) [type]
  let type ← g.type
  if ← eat .question then return .mk .optionalType (← spanFrom start) [type]
  return type

def isOutOfOrder (elements : List Node) : Bool :=
  (elements.dropWhile fun e => e.kind ≠ .optionalType).any fun e =>
    e.kind ≠ .optionalType && e.kind ≠ .restType

def tupleType : Parser Node := do
  let start ← position
  expect .lbracket
  let elements ← delimited (is .rbracket) (tupleElement g)
  expect .rbracket
  let span ← spanFrom start
  if isOutOfOrder elements then failAt span .tupleOrder
  return .mk .tupleType span elements

def importOptions : Parser Node := do
  expect .lbrace
  expectWord "with"
  expect .colon
  let attributes ← g.object
  let _ ← eat .comma
  expect .rbrace
  return attributes

def importType : Parser Node := do
  let start ← position
  expectWord "import"
  expect .lparen
  match ← token with
  | .string _ _ => advance
  | _ =>
    let span ← here
    advance
    emit span .importTypeText
  let options ← if (← eat .comma) && (← is .lbrace) then pure [← importOptions g] else pure []
  expect .rparen
  let name ← if ← eat .dot then pure [← entityName (identifier false)] else pure []
  let args ← if ← isOp .lt then pure [← typeArguments g] else pure []
  return .mk .importType (← spanFrom start) (name ++ args ++ options)

def queryType : Parser Node := do
  let start ← position
  expectWord "typeof"
  if ← isThe "import" then
    let inner ← importType g
    return .mk .queryType (← spanFrom start) [inner]
  let name ← entityName anyName
  let args ← if !(← onNewLine) && (← isOp .lt) then pure [← typeArguments g] else pure []
  return .mk .queryType (← spanFrom start) (name :: args)

def templateType : Parser Node := do
  let start ← position
  let types ← loop (fun acc => do
    match ← token with
    | .template _ true wrong =>
      advance
      if let some issue := wrong then throw issue
      return .inr acc
    | .template _ false wrong =>
      advance
      if let some issue := wrong then throw issue
      let type ← g.type
      unless ← is .rbrace do fail (.expected "\x7d" (← token).text)
      modify fun s =>
        let l := s.lexeme
        { s with lexeme := (Cursor.mk ('\x7d' :: l.next.rest) l.span.start).lexTemplate }
      return .inl (type :: acc)
    | .bad found => advance; throw found
    | _ => unexpected "\x60") (← budget) []
  return .mk .templateType (← spanFrom start) types.reverse

def keywordTypes : List String :=
  ["void", "null", "any", "boolean", "bigint", "never", "number", "object", "string", "symbol",
    "unknown", "undefined", "intrinsic"]

def primaryType : Parser Node := do
  needToken
  let start ← position
  match ← token with
  | .word name plain =>
    if !plain then typeReference g
    else if name == "import" then importType g
    else if name == "this" then
      advance
      let self := Node.mk .thisType (← spanFrom start) []
      if !(← onNewLine) && (← isThe "is") then
        advance
        let type ← g.type
        return .mk .predicateType (← spanFrom start) [self, type]
      return self
    else if name == "typeof" then queryType g
    else if name == "true" || name == "false" then
      advance
      return .mk .literalType (← spanFrom start) []
    else if name == "let" || (isKeyword name && !(["void", "null", "break", "enum"].contains name)) then
      unexpected typeStarts
    else if name == "asserts" && (← peekIsThe "this") then
      advance
      let self ← anyName
      let type ← if ← eatWord "is" then pure [← g.type] else pure []
      return .mk .predicateType (← spanFrom start) (self :: type)
    else if keywordTypes.contains name && !(← peekIs .dot) then
      advance
      return .mk .keywordType (← spanFrom start) []
    else typeReference g
  | .string _ _ | .number _ | .bigint _ =>
    advance
    return .mk .literalType (← spanFrom start) []
  | .template _ _ _ => templateType g
  | .mark (.binary .sub) =>
    advance
    match ← token with
    | .number _ | .bigint _ =>
      advance
      return .mk .literalType (← spanFrom start) []
    | _ => unexpected "numeric literal or bigint literal"
  | .mark .lbrace =>
    if ← opensMappedType then mappedType g
    else
      let members ← typeMembers g
      return .mk .objectType (← spanFrom start) members
  | .mark .lbracket => tupleType g
  | .mark .lparen =>
    advance
    let type ← g.type
    expect .rparen
    return .mk .parenType (← spanFrom start) [type]
  | _ => unexpected typeStarts

def arrayType : Parser Node := do
  let first ← primaryType g
  loop (fun type => do
    if !(← onNewLine) && (← is .lbracket) then
      advance
      if ← eat .rbracket then return .inl (.mk .arrayType (← spanFrom type.start) [type])
      else
        let index ← g.type
        expect .rbracket
        return .inl (.mk .indexedType (← spanFrom type.start) [type, index])
    else return .inr type) (← budget) first

def typeOperator : Parser Node := do
  let start ← position
  if (← isThe "keyof") || (← isThe "unique") || (← isThe "readonly") then
    advance
    let type ← g.typeOperator
    return .mk .operatorType (← spanFrom start) [type]
  else if ← isThe "infer" then
    advance
    let name ← anyName
    let bound ← attempt do
      expectWord "extends"
      let type ← withMode ({ · with plainTypes := true }) (plainType g)
      if !(← mode).plainTypes && (← is .question) then return none
      return some type
    return .mk .inferType (← spanFrom start) (name :: bound.toList)
  else arrayType g

end

end Parser
end Syntax
end CastLint
