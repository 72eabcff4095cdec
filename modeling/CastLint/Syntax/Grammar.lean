import CastLint.Syntax.Parser.Modules

/-! The whole grammar, and the reading of a program text. The parsers of one level call those of
the level below, and a text gets more levels than its nesting can use. -/

namespace CastLint
namespace Syntax

open CastLint.Syntax.Parser in
def Grammar.over (g : Grammar) : Grammar where
  assign := assignNode g
  unary := unaryNode g
  binaryRest := Parser.binaryRest g
  memberOrNew := Parser.memberOrNew g
  callOrMember := Parser.callOrMember g
  suffixes := Parser.suffixes g
  object := objectNode g
  decorators := Parser.decorators g false
  type := typeNode g
  typeOperator := Parser.typeOperator g
  pattern := patternNode g
  statement := statementNode g
  moduleItem := Parser.moduleItem g
  markup := markupNode g

def grammar (depth : Nat) : Grammar := Nat.repeat Grammar.over depth Grammar.exhausted

/-- What reading a text gives: the items of the module unless reading was given up, and the
mistakes, the one that ended the reading last. -/
structure Reading where
  items : Option (List Node)
  issues : List Issue
deriving Inhabited

/-- The first token of a text. A first line that names an interpreter is skipped. Whether the code
is strict is not known yet, so what only strict code forbids is reported behind all else. -/
def firstLexeme (typescript : Bool) (text : List Char) : Lexeme :=
  let mode : LexMode := { strict := false, typescript := typescript }
  let first := match text with
    | '#' :: '!' :: rest =>
      let line := '#' :: '!' :: rest.takeWhile (!isLineBreak ·)
      ((Cursor.mk text 0).after line (rest.dropWhile (!isLineBreak ·))).lex mode true
    | _ => (Cursor.mk text 0).lex mode true
  let (strict, others) := first.issues.partition (·.fault.isStrict)
  { first with issues := others ++ strict }

def read (dialect : Dialect) (text : List Char) : Reading :=
  let first := firstLexeme dialect.typescript text
  let start : State :=
    { dialect := dialect, mode := {}, lexeme := first, before := ⟨0, 0⟩,
      issues := first.issues.reverse, labels := [], arrowStart := none, trailing := [] }
  let g := grammar (8 * text.length + 8)
  let items : Parser (List Node) := Parser.collect do
    if ← Parser.isEnd then return none else some <$> g.moduleItem
  match items start with
  | .ok nodes s => ⟨some nodes, s.issues.reverse⟩
  | .error issue s => ⟨none, s.issues.reverse ++ [issue]⟩

end Syntax
end CastLint
