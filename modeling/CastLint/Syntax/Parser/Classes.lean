import CastLint.Syntax.Parser.Functions

/-! Classes and their members. -/

namespace CastLint
namespace Syntax
namespace Parser

structure Modifiers where
  isStatic : Bool := false
  isAbstract : Bool := false
  isOverride : Bool := false
  readonly : Option Span := none
  isDeclare : Bool := false
  access : Bool := false
  isOptional : Bool := false
  isAccessor : Bool := false
deriving Inhabited

def isMethodHead : Parser Bool := do
  return (← is .lparen) || ((← isTypescript) && (← isOp .lt))

/-- What follows makes a field of a name; a line that ends does so if `lineEnds` holds. -/
def isFieldEnd (lineEnds : Bool) : Parser Bool := do
  if (← isTypescript) && ((← is .bang) || (← is .colon)) then return true
  if (← is (.assign none)) || (← is .rbrace) then return true
  if lineEnds then isStatementEnd else is .semi

def isConstructorKey (key : Node) : Bool :=
  key.kind = .name "constructor" || key.kind = .plainKey "constructor"

section

variable (g : Grammar)

def memberName : Parser Node := do
  unless ← is .hash do return ← propertyKey g
  let name ← privateName
  if name.kind = .privateName "constructor" then emit name.span .privateConstructor
  return name

def isPrivate (key : Node) : Bool :=
  match key.kind with
  | .privateName _ => true
  | _ => false

def methodMember (start : Nat) (decorators : List Node) (m : Modifiers) (key : Node)
    (isAsync isGenerator : Bool) (params : Parser (List Node)) : Parser Node := do
  let (parts, hasBody) ← methodRest g decorators isAsync isGenerator params
  let span ← spanFrom start
  if isPrivate key then
    if m.access then emit ⟨start, key.stop⟩ .privateWithAccess
  else if m.isAbstract && hasBody then emit span .abstractBody
  return .mk (.classMethod (m.isAbstract && !isPrivate key)) span (key :: parts)

def fieldMember (start : Nat) (decorators : List Node) (m : Modifiers) (key : Node) :
    Parser Node := do
  if isConstructorKey key then failAt key.span .fieldConstructor
  if isPrivate key then
    if m.isDeclare then emit key.span (.modifierOnPrivate "declare")
    if m.isAbstract then emit key.span (.modifierOnPrivate "abstract")
  if (← isTypescript) && !m.isOptional then
    let _ ← eat .bang
  let types ← if ← isTypescript then typeAnnotation? g else pure none
  withMode ({ · with operatorIn := true, inField := true }) do
    let value ← if ← eat (.assign none) then some <$> g.assign else pure none
    unless ← eatStatementEnd do emit (← here) .expectedSemicolon
    let span ← spanFrom start
    let isAbstract := m.isAbstract && !isPrivate key
    unless m.isAccessor do
      if isPrivate key && m.access then emit span .privateWithAccess
      if isAbstract && value.isSome then emit span .abstractValue
    return .mk (if m.isAccessor then .accessorField else .field isAbstract) span
      (key :: value.toList ++ types.toList ++ decorators)

/-- The access of a member or parameter, if a word tells it. Words about how types vary do not
belong there. -/
def accessWord? : Parser Bool := do
  match ← modifier? ["public", "protected", "private", "in", "out"] false with
  | some word =>
    let isVariance := word == "in" || word == "out"
    if isVariance then emit (← before) (.modifierOfTypes word)
    return !isVariance
  | none => return false

def constructorParameter (start : Nat) (decorators : List Node) : Parser Node := do
  let access ← accessWord?
  let isOverride := (← modifier? ["override"] false).isSome
  let isReadonly := (← modifier? ["readonly"] false).isSome
  let isProperty := access || isOverride || isReadonly
  let pattern ← parameterPattern g
  if isProperty && !pattern.isName && pattern.kind ≠ .defaultPattern then
    failAt pattern.span .parameterPropertyPattern
  return .mk (if isProperty then .propertyParameter else .parameter) (← spanFrom start)
    (decorators ++ [pattern])

def constructorParameters : Parser (List Node) := do
  let found ← loop (fun (acc, rest) => do
    if ← is .rparen then return .inr acc
    if let some span := rest then emit span .restParameterNotLast
    let start ← position
    let decorators ← decorators g false
    let inner ← position
    let (param, rest, isRest) ← if ← eat .ellipsis then do
        let pattern ← g.pattern
        let types ← if ← isTypescript then typeAnnotation? g else pure none
        let span ← spanFrom inner
        let pattern := Node.mk .restPattern span (pattern :: types.toList)
        pure (Node.mk .parameter (← spanFrom start) (decorators ++ [pattern]), some span, true)
      else do
        pure (← constructorParameter g start decorators, rest, false)
    unless ← is .rparen do
      expect .comma
      if isRest && (← is .rparen) then emit (← before) .commaAfterRest
    return .inl (param :: acc, rest)) (← budget) ([], none)
  return found.reverse

/-- Type parameters in front of the parameters of a constructor do not belong there. -/
def strayTypeParameters : Parser Unit := do
  let at_ ← position
  if ← peekIs (.binary .gt) then
    advance
    let second ← position
    advance
    emit (← spanFrom at_) .constructorTypes
    emit (← spanFrom second) .constructorTypeParameters
  else
    let types ← typeParameters g ⟨false, true⟩
    for t in types.parts do emit t.span .constructorTypeParameters

def constructorMember (start : Nat) (m : Modifiers) (static : Option Span)
    (modifierSpan : Option Span) (key : Node) : Parser Node := do
  if (← isTypescript) && m.isOverride then
    emit (← spanFrom start) (.modifierOnConstructor "override")
  if (← isTypescript) && (← isOp .lt) then strayTypeParameters g
  expect .lparen
  let params ← withMode (fun m => { m with
    inAsync := false, inGenerator := false, operatorIn := true, colonAhead := false,
    superAllowed := true }) (constructorParameters g)
  expect .rparen
  if (← isTypescript) && (← is .colon) then
    if let some type ← typeAnnotation? g then emit type.span .constructorReturnType
  let body ← withMode ({ · with superAllowed := true })
    (functionBody g false false (arePlain (parameterPatterns params)))
  if body.isNone then
    for p in params do
      if p.kind = .propertyParameter then emit p.span .parameterProperty
    checkBodiless params
  if let some span := static then emit span (.modifierOnConstructor "static")
  if m.isAbstract then
    if let some span := modifierSpan then emit span .abstractMisplaced
  return .mk (.constructor body.isSome) (← spanFrom start) (key :: params ++ body.toList)

def staticBlock (start : Nat) : Parser Node := do
  let body ← withMode ({ · with inStaticBlock := true, inField := true, usingAllowed := true })
    (block g)
  return .mk .staticBlock (← spanFrom start) [body]

/-- Adds one modifier, and reports one that is repeated, misplaced or at odds with another. -/
def addModifier (m : Modifiers) (word : String) : Parser Modifiers := do
  let span ← before
  match word with
  | "abstract" =>
    if m.isAbstract then emit span (.modifierRepeated "abstract")
    else if m.isOverride then emit span (.modifierOrder "abstract" "override")
    else if m.readonly.isSome then emit span (.modifierOrder "abstract" "readonly")
    return { m with isAbstract := true }
  | "override" =>
    if m.isOverride then emit span (.modifierRepeated "override")
    else if m.readonly.isSome then emit span (.modifierOrder "override" "readonly")
    else if m.isDeclare then emit span (.modifierClash "override" "declare")
    else if !(← mode).hasBase then emit span .overrideWithoutBase
    return { m with isOverride := true }
  | "readonly" =>
    if m.readonly.isSome then
      emit span (.modifierRepeated "readonly")
      return m
    else return { m with readonly := some span }
  | "static" =>
    if m.isOverride then emit span (.modifierOrder "static" "override")
    return { m with isStatic := true }
  | _ => return m

def memberRest (start : Nat) (decorators : List Node) (m : Modifiers) (declare : Option Span)
    (static : Option Span) : Parser Node := do
  let (m, modifierSpan) ← loop (fun (m, span) => do
    match ← modifier? ["abstract", "readonly", "override", "static"] true with
    | some word =>
      let m ← addModifier m word
      return .inl (m, some (← before))
    | none => return .inr (m, span)) (← budget) (m, none)
  let isAccessor ← if m.isAccessor then pure true
    else if (← isTypescript) && !(← peekIs .lparen) then eatWord "accessor"
    else pure false
  let m := { m with isAccessor := isAccessor }
  if m.isStatic && (← is .lbrace) then
    if let some span := declare then emit span .modifierMisplaced
    if m.access then emit (← here) .modifierMisplaced
    return ← staticBlock g start
  if (← isThe "static") && (← peekIs .lbrace) then
    if let some span := modifierSpan then emit span .modifierMisplaced
    if let some span := static then emit span .modifierMisplaced
    advance
    return ← staticBlock g start
  if (← isTypescript) && !m.isAbstract && !m.isOverride && !m.access then
    if let some index ← indexSignature? g start then return index
  if ← eatOp .mul then
    let key ← memberName g
    if m.readonly.isSome then emit (← spanFrom start) .readonlyMethod
    if isConstructorKey key then emit (← spanFrom start) .generatorConstructor
    return ← methodMember g start decorators m key false true (functionParameters g)
  let key ← match m.readonly with
    | some span =>
      if (← is .bang) || (← is .colon) || (← is (.assign none)) || (← is .rbrace) then
        pure (Node.mk (.name "readonly") span [])
      else memberName g
    | none => memberName g
  let isOptional ← if ← isTypescript then eat .question else pure false
  let m := { m with isOptional := isOptional }
  if ← isMethodHead then
    if let some span := declare then emit span .declareMisplaced
    if m.readonly.isSome then failAt (← spanFrom start) .readonlyMethod
    if isConstructorKey key then return ← constructorMember g start m static modifierSpan key
    return ← methodMember g start decorators m key false false (functionParameters g)
  let generatorBelow := (← onNewLine) && (← isOp .mul)
  let accessor := (key.kind = .name "get" || key.kind = .name "set") &&
    !(← isFieldEnd false) && !generatorBelow
  if !accessor && (← isFieldEnd true) then return ← fieldMember g start decorators m key
  if key.kind = .name "async" && !(← onNewLine) then
    let m ← if (← modifier? ["override"] false).isSome then do
        emit (← before) (.modifierOrder "override" "async")
        pure { m with isOverride := true }
      else pure m
    let isGenerator ← eatOp .mul
    let key ← memberName g
    if isConstructorKey key then failAt key.span .asyncConstructor
    if m.readonly.isSome then emit (← spanFrom start) .readonlyMethod
    if ← isTypescript then
      let _ ← eat .question
    return ← methodMember g start decorators m key true isGenerator (functionParameters g)
  if accessor then
    let isGetter := key.kind = .name "get"
    let target ← memberName g
    if m.readonly.isSome then emit key.span .readonlyAccessor
    if isConstructorKey target then emit key.span .accessorConstructor
    let params := if isGetter then getterParameters g key.span else setterParameters g key.span
    return ← methodMember g start decorators m target false false params
  unexpected "* for generator, private key, identifier or async"

def wordMember? (start : Nat) (decorators : List Node) (m : Modifiers) (word : String)
    (span : Span) (lineEnds : Bool) : Parser (Option Node) := do
  let ts ← isTypescript
  let key := Node.mk (.name word) span []
  if ← isMethodHead then
    return some (← methodMember g start decorators m key false false (functionParameters g))
  if (← isFieldEnd lineEnds) || (ts && (← is .question)) then
    let isOptional ← if ts then eat .question else pure false
    return some (← fieldMember g start decorators { m with isOptional := isOptional } key)
  return none

def classMember : Parser Node := do
  let start ← position
  let decorators ← decorators g false
  let ts ← isTypescript
  let declared ← if ts then eatWord "declare" else pure false
  let access ← accessWord?
  let declared ← if declared then pure true else if ts then eatWord "declare" else pure false
  let m : Modifiers := { access := access }
  if declared then
    if let some node ← wordMember? g start decorators m "declare" (← before) true then return node
  let declare ← if declared then some <$> spanFrom start else pure none
  let m := { m with isDeclare := declared }
  let isStatic ← eatWord "static"
  let static ← if isStatic then some <$> before else pure none
  if isStatic then
    if let some node ← wordMember? g start decorators m "static" (← before) false then return node
  let m := { m with isStatic := isStatic }
  let isAccessor ← if ts then eatWord "accessor" else pure false
  if isAccessor then
    if let some node ← wordMember? g start decorators m "accessor" (← before) false then
      return node
  memberRest g start decorators { m with isAccessor := isAccessor } declare static

def classBody : Parser (List Node) :=
  withMode (fun m => { m with
    superAllowed := true, operatorIn := true, colonAhead := false, inConditional := false }) do
    let (members, _) ← loop (fun (acc, seen) => do
      if (← is .rbrace) || (← isEnd) then return .inr (acc, seen)
      if ← eat .semi then return .inl (Node.mk .emptyMember (← before) [] :: acc, seen)
      let member ← classMember g
      let isWhole := member.kind = .constructor true && !(← mode).inDeclare
      if isWhole && seen then emit member.span .repeatedConstructor
      return .inl (member :: acc, seen || isWhole)) (← budget) ([], false)
    return members.reverse

/-- The types behind `implements` or behind the `extends` of an interface, each a name with its
members and its arguments. -/
def heritage : Parser (List Node) :=
  delimited (do return (← is .lbrace) || (← isThe "implements") || (← isThe "extends")) do
    let start ← position
    let name ← g.suffixes true true (← anyName)
    let isEntity : Bool := match name.kind with
      | .name _ | .member | .instantiation => true
      | _ => false
    unless isEntity do emit (← spanFrom start) .interfaceBase
    let types ← if name.kind ≠ .instantiation && (← isOp .lt) then pure [← typeArguments g]
      else pure []
    return .mk .heritage (← spanFrom start) (name :: types)

def baseClass : Parser (Node × List Node) := do
  let base ← g.callOrMember
  match base with
  | .mk .instantiation _ [inner, types] => return (inner, [types])
  | _ =>
    if (← isTypescript) && (← isOp .lt) then return (base, [← typeArguments g])
    else return (base, [])

def builtinTypes : List String :=
  ["string", "null", "number", "object", "any", "unknown", "boolean", "bigint", "symbol", "void",
    "never", "intrinsic"]

def classNameNode (required : Bool) : Parser (List Node) := do
  let name ← if required || (← isReference) then pure [← blockBindingName] else optionalName
  if ← isTypescript then
    for n in name do
      if builtinTypes.contains (n.name?.getD "") then emit n.span .className
  return name

/-- What a class is based on: the base class with its type arguments, and the interfaces that it
implements. Clauses that are repeated or out of order are reported. -/
def classBases : Parser (Option (Node × List Node) × List Node) := do
  let ts ← isTypescript
  let base ← if ← eatWord "extends" then do
      let base ← baseClass g
      if ts then
        if ← eat .comma then
          for other in ← heritage g do emit other.span .manyBases
      pure (some base)
    else pure none
  if ← eatWord "extends" then
    emit (← before) .repeatedExtends
    let _ ← baseClass g
  unless ts do return (base, [])
  let interfaces ← if ← eatWord "implements" then heritage g else pure []
  if ← eatWord "implements" then
    emit (← before) .repeatedImplements
    let _ ← heritage g
  if ← eatWord "extends" then
    emit (← before) .extendsAfterImplements
    let again ← baseClass g
    return (base <|> some again, interfaces)
  return (base, interfaces)

def isAbstractMember (member : Node) : Bool :=
  member.kind = .classMethod true || member.kind = .field true

def classNode (start : Nat) (decorators : List Node) (kind : Kind) (nameRequired : Bool)
    (isAbstract : Bool) : Parser Node := withMode ({ · with inClass := true }) do
  expectWord "class"
  let name ← classNameNode nameRequired
  let types ← if ← isTypescript then typeParameters? g ⟨true, true⟩ else pure []
  let (base, interfaces) ← classBases g
  expect .lbrace
  let members ← withMode ({ · with hasBase := base.isSome }) (classBody g)
  if ← isEnd then emit (← here) (.expected "\x7d" (← token).text) else expect .rbrace
  unless isAbstract do
    for member in members do
      if isAbstractMember member then emit member.span .abstractOutside
  let bases := match base with
    | some (node, args) => [node] ++ types ++ args
    | none => types
  return .mk kind (← spanFrom start) (name ++ decorators ++ members ++ bases ++ interfaces)

end

end Parser
end Syntax
end CastLint
