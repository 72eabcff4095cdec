import CastLint.Syntax.Node

/-! Casts with `as`, and the walk that meets them. -/

namespace CastLint
namespace Syntax

structure Cast where
  operand : Node
  type : Node
  span : Span

def Node.cast? : Node → Option Cast
  | .mk .asCast span (operand :: type :: _) => some ⟨operand, type, span⟩
  | _ => none

def casts (items : List Node) : List Cast := (Node.preorderAll items).filterMap Node.cast?

inductive Flow where
  | goOn | stop
deriving DecidableEq

section

variable {σ : Type} (visit : σ → Cast → σ × Flow)

/-- Visits a cast, unless a visit before has stopped the walk. -/
def visitNext : σ × Flow → Cast → σ × Flow
  | (s, .stop), _ => (s, .stop)
  | (s, .goOn), cast => visit s cast

mutual

/-- Visits the casts of a tree one by one, a cast in front of those inside it. A walk that has been
stopped goes on through the tree, but it enters no cast. -/
def Node.walk : σ × Flow → Node → σ × Flow
  | state, .mk kind span parts =>
    match Node.cast? (.mk kind span parts) with
    | some cast =>
      match visitNext visit state cast with
      | (s, .goOn) => Node.walkAll (s, .goOn) parts
      | (s, .stop) => (s, .stop)
    | none => Node.walkAll state parts

def Node.walkAll : σ × Flow → List Node → σ × Flow
  | state, [] => state
  | state, n :: ns => Node.walkAll (Node.walk state n) ns

end

/-- Visits the casts of a module in order, up to the first visit that stops the walk. -/
def walk (items : List Node) (start : σ) : σ := (Node.walkAll visit (start, .goOn) items).1

end

def Node.bare : Node → Node
  | .mk .asCast _ (operand :: _) => operand.bare
  | .mk .paren _ (inner :: _) => inner.bare
  | n => n

/-- The two parts of the name of a type with one dot in it, type arguments left aside. -/
def Node.qualifiedName? : Node → Option (String × String)
  | .mk .typeReference _ (.mk .qualifiedName _ [space, member] :: _) => do
    return (← space.name?, ← member.name?)
  | _ => none

end Syntax
end CastLint
