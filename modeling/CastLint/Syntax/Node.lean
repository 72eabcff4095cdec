import CastLint.Syntax.Token

/-! Syntax trees. A node has a kind, the span of its text and its parts. The parts stand in the
order in which a walk visits them, which is not always their order in the text: a class comes with
its body in front of its base class, and a loop that tests last with its test in front. -/

namespace CastLint
namespace Syntax

/-- What a node stands for. Names keep their text and operators their sign. -/
inductive Kind where
  -- expressions
  | name (text : String) | privateName (text : String) | thisExpr | superExpr | literal
  | stringLiteral (raw : String) | template | tagged
  | array | hole | spread | object | function | arrow | classExpr
  | paren | sequence | unary | update | await | yield
  | binary (op : BinaryOp) | assign (op : Option BinaryOp) | conditional
  | member | superMember | call | new (hasArguments : Bool)
  | chainMember (optional : Bool) | chainCall (optional : Bool)
  | metaProperty | importCall
  | asCast | constCast | satisfies | nonNull | typeAssertion | instantiation
  | markup | invalid
  -- members of object literals
  | shorthand (text : String) | keyValue | shorthandDefault | getter | setter | method
  | computedKey | plainKey (text : String)
  -- patterns
  | objectPattern | arrayPattern | restPattern | defaultPattern | patternEntry | patternShorthand
  | parameter | propertyParameter
  -- members of classes
  | classMethod (isAbstract : Bool) | constructor (hasBody : Bool) | field (isAbstract : Bool)
  | accessorField | staticBlock | emptyMember
  | indexSignature | decorator | heritage
  -- types
  | typeClause | typeReference | qualifiedName | typeArguments | typeParameters
  | keywordType | literalType
  | arrayType | tupleType | indexedType | unionType | intersectionType | conditionalType
  | operatorType | queryType | importType | functionType | objectType | mappedType | parenType
  | thisType | predicateType | templateType | inferType | restType | optionalType | typeMember
  -- statements and declarations
  | block | expressionStatement | empty | ifStatement | forStatement | forIn | forOf | whileLoop
  | doLoop | switch | switchCase | tryStatement | catchClause | throwStatement | returnStatement
  | breakStatement | continueStatement | debugger | labelled | withStatement
  | variableDeclaration | declarator | functionDeclaration | classDeclaration | interface | typeAlias
  | enumDeclaration | enumMember | namespaceDeclaration
  | importDeclaration | exportDeclaration
deriving DecidableEq, Repr, Inhabited

inductive Node where
  | mk (kind : Kind) (span : Span) (parts : List Node)
deriving Repr

namespace Node

instance : Inhabited Node := ⟨mk .invalid ⟨0, 0⟩ []⟩

def kind : Node → Kind
  | mk k _ _ => k

def span : Node → Span
  | mk _ s _ => s

def parts : Node → List Node
  | mk _ _ ps => ps

def start (n : Node) : Nat := n.span.start

def stop (n : Node) : Nat := n.span.stop

mutual

def preorder : Node → List Node
  | mk k s ps => mk k s ps :: preorderAll ps

def preorderAll : List Node → List Node
  | [] => []
  | n :: ns => n.preorder ++ preorderAll ns

end

def unparen : Node → Node
  | mk .paren _ [inner] => if inner.kind = .paren then inner.unparen else inner
  | n => n

def isName (n : Node) : Bool :=
  match n.kind with
  | .name _ => true
  | _ => false

def name? (n : Node) : Option String :=
  match n.kind with
  | .name text => some text
  | _ => none

end Node

def isReservedBinding (name : String) : Bool := name == "arguments" || name == "eval"

/-- An expression that stands for a place: a name or a property, in parentheses or casts. -/
def Node.isPlace : Node → Bool
  | .mk (.name text) _ _ => !isReservedBinding text
  | .mk .member _ _ => true
  | .mk .superMember _ _ => true
  | .mk .paren _ [inner] => inner.isPlace
  | .mk .asCast _ (inner :: _) => inner.isPlace
  | .mk .satisfies _ (inner :: _) => inner.isPlace
  | .mk .nonNull _ (inner :: _) => inner.isPlace
  | .mk .typeAssertion _ (inner :: _) => inner.isPlace
  | .mk .instantiation _ (inner :: _) => inner.isPlace
  | _ => false

end Syntax
end CastLint
