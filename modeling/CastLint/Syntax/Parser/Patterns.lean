import CastLint.Syntax.Parser.Types

/-! Destructuring patterns, those that are read as such and those that turn out to be patterns only
behind an expression. -/

namespace CastLint
namespace Syntax
namespace Parser

def isReservedShorthand (w : String) : Bool := isReserved w && w != "static"

section

variable (g : Grammar)

def propertyKey : Parser Node := do
  let start ← position
  match ← token with
  | .string value _ =>
    advance
    return .mk (.plainKey value) (← spanFrom start) []
  | .number _ | .bigint _ =>
    advance
    return .mk .literal (← spanFrom start) []
  | .word _ _ => anyName
  | .mark .lbracket =>
    advance
    let inner ← position
    let element : Parser Node := withMode ({ · with operatorIn := true }) g.assign
    let first ← element
    let key ← if (← isTypescript) && (← is .comma) then do
        let more ← collect do
          if ← eat .comma then some <$> element else return none
        emit (← spanFrom inner) .computedComma
        pure (Node.mk .sequence (← spanFrom inner) (first :: more))
      else pure first
    expect .rbracket
    return .mk .computedKey (← spanFrom start) [key]
  | _ => unexpected "identifier, string literal, numeric literal or [ for the computed key"

def patternElement : Parser Node := do
  defaulted g (← position) (← g.pattern)

def arrayPattern : Parser Node := do
  let start ← position
  expect .lbracket
  let elements ← loop (fun (acc : List Node × Option Span) => do
    if (← is .rbracket) || (← isEnd) then return .inr acc.1.reverse
    if ← eat .comma then return .inl (.mk .hole (← before) [] :: acc.1, acc.2)
    if let some span := acc.2 then emit span .restNotLast
    let inner ← position
    let (element, rest) ← if ← eat .ellipsis then do
        let argument ← g.pattern
        let span ← spanFrom inner
        pure (Node.mk .restPattern span [argument], some span)
      else do
        pure (← patternElement g, acc.2)
    unless ← is .rbracket do
      expect .comma
      if element.kind = .restPattern && (← is .rbracket) then emit (← before) .commaAfterRest
    return .inl (element :: acc.1, rest)) (← budget) ([], none)
  expect .rbracket
  let span ← spanFrom start
  if (← mode).inDeclare then
    let _ ← eat .question
  return .mk .arrayPattern span elements

def patternEntry : Parser Node := do
  let start ← position
  if ← eat .ellipsis then
    let argument ← g.pattern
    return .mk .restPattern (← spanFrom start) [argument]
  let key ← propertyKey g
  if ← eat .colon then
    let value ← patternElement g
    return .mk .patternEntry (← spanFrom start) [key, value]
  match key.kind with
  | .name text =>
    if ← eat (.assign none) then
      let value ← withMode ({ · with operatorIn := true }) g.assign
      return .mk .patternShorthand (← spanFrom start) [key, value]
    else
      if isReservedShorthand text then emit key.span .reservedShorthand
      return .mk .patternShorthand (← spanFrom start) [key]
  | _ => unexpected "an identifier"

def bracedEntries (entry : Parser Node) : Parser (List Node × Option Span) := do
  expect .lbrace
  let (entries, trailing) ← loop (fun (acc, trailing) => do
    if ← eat .rbrace then return .inr (acc, trailing)
    let node ← entry
    if ← is .rbrace then return .inl (node :: acc, none)
    expect .comma
    let trailing ← if ← is .rbrace then some <$> before else pure none
    return .inl (node :: acc, trailing)) (← budget) ([], none)
  return (entries.reverse, trailing)

def objectPattern : Parser Node := do
  let start ← position
  let (entries, trailing) ←
    withMode ({ · with colonAhead := false }) (bracedEntries (patternEntry g))
  let span ← spanFrom start
  for entry in entries.dropLast do
    if entry.kind = .restPattern then emit entry.span .restNotLast
  if let some entry := entries.getLast? then
    if let .mk .restPattern restSpan [argument] := entry then
      if argument.isName then
        if let some comma := trailing then emit comma .commaAfterRest
      else failAt restSpan .restWithoutName
  if (← mode).inDeclare then
    let _ ← eat .question
  return .mk .objectPattern span entries

def patternNode : Parser Node := do
  match ← token with
  | .word _ _ => bindingName
  | .mark .lbracket => arrayPattern g
  | .mark .lbrace => objectPattern g
  | .bad found => advance; throw found
  | _ => unexpected "yield, an identifier, [ or \x7b"

end

def checkTarget (target : Node) (denyCall : Bool) : Parser Unit := do
  unless target.isPlace do
    if ← isTypescript then
      emit target.span .assignmentTarget
      let denied : Bool := match target.unparen.kind with
        | .literal => false
        | .stringLiteral _ => false
        | .binary _ => false
        | .call => denyCall
        | _ => true
      match target.name? with
      | some _ => emit target.span .reservedTarget
      | none => if denied then emit target.span .assignmentTarget
    else emit target.span .notAssignable

/-- What a pattern is for: the left of an assignment, a part of such a left side, or a binding. -/
inductive PatternUse where
  | assignment | assignmentPart | binding | bindingPart
deriving DecidableEq

def PatternUse.part : PatternUse → PatternUse
  | .assignment => .assignmentPart
  | .assignmentPart => .assignmentPart
  | .binding => .bindingPart
  | .bindingPart => .bindingPart

/-- Kinds of expressions that can be a part of the left side of an assignment as they are. -/
def isTargetKind : Kind → Bool
  | .member | .superMember | .call | .new _ | .literal | .stringLiteral _ | .name _ | .function
  | .classExpr | .paren
  | .template | .asCast => true
  | _ => false

def asPattern : Nat → PatternUse → Node → Parser Node
  | 0, _, _ => fail .tooDeep
  | fuel + 1, use, node => do
    let invalid : Parser Node := do
      emit node.span .notPattern
      return .mk .invalid node.span []
    match node.kind with
    | .invalid => return node
    | .object =>
      let count := node.parts.length
      let entries ← node.parts.zipIdx.mapM fun (entry, i) => do
        match entry with
        | .mk (.shorthand text) span _ =>
          return Node.mk .patternShorthand span [.mk (.name text) span []]
        | .mk .keyValue span [key, value] =>
          return Node.mk .patternEntry span [key, ← asPattern fuel use.part value]
        | .mk .shorthandDefault span parts => return Node.mk .patternShorthand span parts
        | .mk .spread span [inner] =>
          if i + 1 ≠ count then emit span .restNotLast
          else if let some (_, comma) := (← get).trailing.find? (·.1 = node.start) then
            emit comma .commaAfterRest
          let argument ← if use.part = .bindingPart then
              if inner.isName then pure inner
              else do
                emit span .restWithoutName
                pure (Node.mk .invalid span [])
            else asPattern fuel use.part inner
          if argument.kind = .defaultPattern then emit span .restWithValue
          return Node.mk .restPattern span [argument]
        | _ => failAt entry.span .notPattern
      return .mk .objectPattern node.span entries
    | .array =>
      let holes := (node.parts.reverse.takeWhile fun e => e.kind = .hole).length
      let count := node.parts.length
      let elements ← node.parts.zipIdx.filterMapM fun (element, i) => do
        match element with
        | .mk .hole _ _ => return some element
        | .mk .spread span [inner] =>
          if i + 1 = count then
            if let .assign _ := inner.kind then emit span .restWithValue
            if let some (_, comma) := (← get).trailing.find? (·.1 = node.start) then
              emit comma .commaAfterRest
            return some (Node.mk .restPattern span [← asPattern fuel use.part inner])
          else
            emit span .restNotLast
            return none
        | _ => return some (← asPattern fuel use.part element)
      return .mk .arrayPattern node.span (elements.take (elements.length - holes))
    | kind =>
      if use = .assignment then
        checkTarget node true
        return node
      else if use = .assignmentPart && isTargetKind kind then
        unless node.isPlace do emit node.span .notAssignable
        return node
      else
        if use = .assignmentPart && !(match kind with | .assign _ => true | _ => false) then
          emit node.span .notPattern
        match node with
        | .mk (.name _) _ _ => return node
        | .mk (.assign none) span [left, right] =>
          let target ← if left.kind = .objectPattern || left.kind = .arrayPattern then pure left
            else asPattern fuel use.part left
          return .mk .defaultPattern span [target, right]
        | _ => invalid

def toPattern (use : PatternUse) (node : Node) : Parser Node := do
  asPattern (node.stop - node.start + 1) use node

end Parser
end Syntax
end CastLint
