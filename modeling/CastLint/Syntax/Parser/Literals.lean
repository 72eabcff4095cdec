import CastLint.Syntax.Parser.Operators

/-! Literals that hold expressions: templates, arrays and objects. -/

namespace CastLint
namespace Syntax
namespace Parser

def resumeTemplate : Parser Unit := do
  let l := (← get).lexeme
  load (Cursor.mk ('\x7d' :: l.next.rest) l.span.start).lexTemplate

section

variable (g : Grammar)

/-- A template with the expressions in its substitutions. Behind a tag its escapes may be wrong. -/
def templateNode (tagged : Bool) : Parser Node := do
  let start ← position
  let check (wrong : Option Issue) : Parser Unit := do
    if let some issue := wrong then
      unless tagged do throw issue
  let found ← loop (fun acc => do
    match ← token with
    | .template _ true wrong =>
      advance
      check wrong
      return .inr acc
    | .template _ false wrong =>
      advance
      check wrong
      let inner ← withMode ({ · with operatorIn := true, colonAhead := false }) (expression g)
      unless ← is .rbrace do fail (.expected "\x7d" (← token).text)
      resumeTemplate
      return .inl (inner :: acc)
    | .bad found => advance; throw found
    | _ => unexpected "template token") (← budget) []
  return .mk .template (← spanFrom start) found.reverse

/-- Remembers a comma in front of the bracket that closes what starts at `start`. -/
def rememberComma (start : Nat) : Parser Unit := do
  let comma ← before
  modify fun s => { s with trailing := (start, comma) :: s.trailing }

def arrayNode : Parser Node := do
  let start ← position
  expect .lbracket
  let elements ← withMode ({ · with operatorIn := true, colonAhead := false }) do
    loop (fun acc => do
      if (← is .rbracket) || (← isEnd) then return .inr acc
      if ← eat .comma then return .inl (Node.mk .hole (← before) [] :: acc)
      let element ← spreadable g
      unless ← is .rbracket do
        expect .comma
        if ← is .rbracket then rememberComma start
      return .inl (element :: acc)) (← budget) []
  expect .rbracket
  return .mk .array (← spanFrom start) elements.reverse

def entryFollowers (typescript : Bool) : String :=
  if typescript then
    "... , *,  (, [, :, , ?, =, an identifier, public, protected, private, readonly, <."
  else "... , *,  (, [, :, , ?, = or an identifier"

def continuesEntry (key : Node) : Parser Bool := do
  match ← token with
  | .word _ _ | .string _ _ | .number _ | .bigint _ => return true
  | .mark m =>
    return [.lparen, .lbracket, .colon, .comma, .question, .assign none, .binary .mul,
      .binary .lt].contains m || (m = .rbrace && key.isName)
  | _ => return false

/-- A getter, setter or asynchronous method behind the word that marks it. Of the parameters a getter
keeps none, and a setter two at most, without their decorators. -/
def accessorEntry (start : Nat) (word : String) : Parser Node := do
  let isGenerator ← if word == "async" then eatOp .mul else pure false
  let key ← propertyKey g
  let (kind, params) := match word with
    | "get" => (Kind.getter, getterParameters g key.span)
    | "set" => (Kind.setter, setterParameters g key.span)
    | _ => (Kind.method, functionParameters g)
  let (parts, hasBody) ← methodRest g [] (word == "async") isGenerator params
  if kind = .getter && !hasBody then emit (← before) .expectedSemicolon
  let params := parts.filter fun p => p.kind = .parameter
  if kind = .setter && params.isEmpty then emit key.span .setterParameter
  let others := parts.filter fun p => p.kind ≠ .parameter
  let parts := match kind with
    | .getter => others
    | .setter => parameterPatterns (params.take 2) ++ others
    | _ => parts
  return .mk kind (← spanFrom start) (key :: parts)

def objectEntry : Parser Node := do
  let start ← position
  let ts ← isTypescript
  if ← eat .ellipsis then
    let inner ← enclosed g.assign
    return .mk .spread (← spanFrom start) [inner]
  if ← eatOp .mul then
    let key ← propertyKey g
    let (parts, _) ← methodRest g [] false true (functionParameters g)
    return .mk .method (← spanFrom start) (key :: parts)
  let modified ← parameterModifier
  let modifierSpan ← before
  let key ← propertyKey g
  if ts && !(← continuesEntry key) then
    emit (← here) .expectedSemicolon
    return .mk .keyValue (← spanFrom start) [key, .mk .invalid (← spanFrom start) []]
  if ← eat .colon then
    let value ← enclosed g.assign
    return .mk .keyValue (← spanFrom start) [key, value]
  if (← is .lparen) || (ts && (← isOp .lt)) then
    let (parts, _) ← methodRest g [] false false (functionParameters g)
    return .mk .method (← spanFrom start) (key :: parts)
  let some name := key.name? | unexpected "identifier"
  if ← eat .question then emit (← before) .optionalMember
  if (← is (.assign none)) || (← is .comma) || (← is .rbrace) then
    if isReservedShorthand name then emit key.span .reservedShorthand
    if ← eat (.assign none) then
      let value ← enclosed g.assign
      return .mk .shorthandDefault (← spanFrom start) [key, value]
    return .mk (.shorthand name) key.span []
  if name == "get" || name == "set" || name == "async" then
    if modified then emit modifierSpan .asyncMisplaced
    accessorEntry g start name
  else unexpected (entryFollowers ts)

def objectNode : Parser Node := withMode ({ · with colonAhead := false }) do
  let start ← position
  let (entries, trailing) ← bracedEntries (objectEntry g)
  if let some comma := trailing then
    modify fun s => { s with trailing := (start, comma) :: s.trailing }
  return .mk .object (← spanFrom start) entries

end

def regexFlags : List Char := ['d', 'g', 'i', 'm', 's', 'u', 'v', 'y']

def checkFlags (span : Span) (flags : List Char) : Parser Unit := do
  if flags.any (!regexFlags.contains ·) then emit span .unknownRegexFlags
  if let some flag := regexFlags.find? fun c => 1 < flags.count c then
    emit span (.repeatedRegexFlag flag)

/-- A regular expression, whose opening slash was read as an operator. One that its line does not
close is reported both when it is read and when it is refused. -/
def regexNode : Parser Node := do
  let l := (← get).lexeme
  let cursor : Cursor := ⟨l.token.text.toList ++ l.next.rest, l.span.start⟩
  let read := cursor.lexRegex
  match read.token with
  | .bad found =>
    modify ({ · with lexeme := read })
    record found
    record found
    throw ⟨⟨l.span.stop, l.span.stop⟩, .expressionExpected⟩
  | .regex _ flags =>
    load { read with newline := l.newline }
    advance
    checkFlags read.span flags.toList
    return .mk .literal read.span []
  | _ => fail .expressionExpected

end Parser
end Syntax
end CastLint
