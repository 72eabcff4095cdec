import CastLint.Syntax.Parser.Calls

/-! Markup inside expressions: tags, their attributes and what they enclose. -/

namespace CastLint
namespace Syntax
namespace Parser

/-- The next token is a piece of markup. Characters that it cannot hold are reported when the piece
is read and when it is taken. -/
def advanceMarkup (cursor : Cursor) : Parser Unit := do
  let s ← get
  set { s with before := s.lexeme.span }
  let piece := cursor.lexMarkup
  load piece
  for issue in piece.issues do record issue

def closingAngle? : Parser (Option Cursor) := do
  let l := (← get).lexeme
  match l.token with
  | .mark m =>
    match m.text.toList with
    | '>' :: more => return some ⟨more ++ l.next.rest, l.span.start + 1⟩
    | _ => return none
  | _ => return none

/-- Goes over the bracket that closes a tag. Between tags markup follows, behind them the program. -/
def closeTag (inExpression : Bool) : Parser Unit := do
  match ← closingAngle? with
  | some cursor =>
    modify fun s => { s with lexeme := { s.lexeme with
      token := .mark (.binary .gt), span := ⟨s.lexeme.span.start, cursor.offset⟩, next := cursor } }
    if inExpression then advance else advanceMarkup cursor
  | none => fail (.expected ">" (← token).text)

def tagWord : Parser Node := do
  modify fun s => { s with lexeme := s.lexeme.extendName }
  match ← token with
  | .markupName _ => anyName
  | _ => unexpected "jsx identifier"

def tagNamespace : Parser Node := do
  let first ← tagWord
  if ← eat .colon then
    let second ← tagWord
    let text := first.name?.getD "" ++ ":" ++ second.name?.getD ""
    return .mk (.name text) (← spanFrom first.start) []
  else return first

def tagName : Parser Node := do
  let first ← tagNamespace
  loop (fun (node : Node) => do
    if ← eat .dot then
      let part ← tagWord
      let text := node.name?.getD "" ++ "." ++ part.name?.getD ""
      return .inl (.mk (.name text) (← spanFrom first.start) [])
    else return .inr node) (← budget) first

section

variable (g : Grammar)

def attributeValue : Parser Node := do
  let s ← get
  match s.lexeme.next.lexMarkupString with
  | some text =>
    set { s with before := s.lexeme.span }
    load text
    advance
    return .mk .literal text.span []
  | none =>
    advance
    let start ← position
    if ← eat .lbrace then
      if ← eat .rbrace then failAt (← spanFrom start) .emptyMarkupValue
      let _ ← eat .ellipsis
      let inner ← enclosed (expression g)
      expect .rbrace
      return inner
    else if ← isOp .lt then g.markup true
    else fail .markupValue

def tagAttribute : Parser Node := do
  let start ← position
  if ← eat .lbrace then
    expect .ellipsis
    let inner ← enclosed g.assign
    expect .rbrace
    return .mk .spread (← spanFrom start) [inner]
  let name ← tagNamespace
  if ← is (.assign none) then
    let value ← attributeValue g
    return .mk .keyValue (← spanFrom start) [name, value]
  else return name

def enclosedExpression : Parser Node := do
  let start ← position
  expect .lbrace
  let inner ← if ← is .rbrace then pure []
    else do
      let _ ← eat .ellipsis
      pure [← enclosed (expression g)]
  unless ← is .rbrace do fail (.expected "\x7d" (← token).text)
  let node := Node.mk .markup ⟨start, (← here).stop⟩ inner
  advanceMarkup (← get).lexeme.next
  return node

def enclosedNodes : Parser (List Node) := collect do
  match ← token with
  | .markupText _ =>
    let node := Node.mk .literal (← here) []
    advanceMarkup (← get).lexeme.next
    return some node
  | .mark .lbrace => recover (some <$> enclosedExpression g) fun _ => return none
  | .mark (.binary .lt) => recover (some <$> g.markup false) fun _ => return none
  | _ => return none

def enclosedRest (inExpression : Bool) (name : Option Node) : Parser (List Node) := do
  match ← closingAngle? with
  | some cursor => advanceMarkup cursor
  | none => fail (.expected ">" (← token).text)
  let nodes ← enclosedNodes g
  expect .closeTag
  let closing ← match name with
    | some _ => some <$> tagName
    | none => pure none
  closeTag inExpression
  if let (some opening, some closing) := (name, closing) then
    unless opening.name? = closing.name? do
      failAt closing.span (.closingTag (opening.name?.getD ""))
  return nodes

def markupNode (inExpression : Bool) : Parser Node := do
  let start ← position
  expect (.binary .lt)
  if (← closingAngle?).isSome then
    let nodes ← enclosedRest g inExpression none
    return .mk .markup (← spanFrom start) nodes
  let name ← tagName
  let types ← if (← isTypescript) && (← isOp .lt) then attempt (some <$> typeArguments g)
    else pure none
  let attributes ← collect do
    if (← closingAngle?).isSome || (← isOp .div) then return none
    some <$> tagAttribute g
  if ← eatOp .div then
    closeTag inExpression
    return .mk .markup (← spanFrom start) (name :: attributes ++ types.toList)
  let nodes ← enclosedRest g inExpression (some name)
  return .mk .markup (← spanFrom start) (name :: attributes ++ types.toList ++ nodes)

end

end Parser
end Syntax
end CastLint
