import CastLint.Proofs.Glyphs
import CastLint.Proofs.ReadStatements

/-! A small language of test scripts. Its lines cast names to mock types, alone or several of them in
parentheses, use casts as operands of members and calls, and assign to casts. The language is large
enough to hold what fixing makes of a script, so one account of how scripts are read serves the text
in front of a pass and the text behind it. -/

namespace CastLint
namespace Script

open Syntax Syntax.Parser

/-- A word that names something. -/
structure Name extends Word where
  ordinary : isOrdinary toWord.text = true

def jest : Name := ⟨⟨'j', ['e', 's', 't'], by decide, by decide⟩, by decide⟩

def mocked : Word := ⟨'m', ['o', 'c', 'k', 'e', 'd'], by decide, by decide⟩

def as : Word := ⟨'a', ['s'], by decide, by decide⟩

/-- A type to which nothing should be cast. -/
inductive MockType where
  | mock | mockedFunction
deriving DecidableEq

def MockType.word : MockType → Word
  | mock => ⟨'M', ['o', 'c', 'k'], by decide, by decide⟩
  | mockedFunction => ⟨'M', "ockedFunction".toList, by decide, by decide⟩

/-- A name with members behind it. -/
structure Path where
  head : Name
  keys : List Word

namespace Path

def a : Path := ⟨⟨⟨'a', [], by decide, by decide⟩, by decide⟩, []⟩

def b : Path := ⟨⟨⟨'b', [], by decide, by decide⟩, by decide⟩, []⟩

def c : Path := ⟨⟨⟨'c', [], by decide, by decide⟩, by decide⟩, []⟩

end Path

/-- An expression in parentheses or among arguments: a path, a cast of one, or the call that replaces
such a cast. -/
inductive Term where
  | path (p : Path)
  | cast (p : Path) (type : MockType)
  | mocked (p : Path)

/-- What follows an operand. The parenthesis of a call may stand on a line of its own. -/
inductive Suffix where
  | member (key : Word)
  | call (broken : Bool) (first : Term) (more : List Term)

/-- An operand at the front of a line: terms in parentheses, or a call of the replacement. -/
inductive Head where
  | group (first : Term) (more : List Term)
  | mocked (first : Term) (more : List Term)

/-- What a line casts: a path, or paths in parentheses. -/
inductive Operand where
  | path (p : Path)
  | group (first : Path) (more : List Path)

/-- A line of a script. It is `closed` if it ends with a semicolon. -/
inductive Line where
  | cast (operand : Operand) (type : MockType) (closed : Bool)
  | value (head : Head) (suffixes : List Suffix) (closed : Bool)
  | assign (target : Term) (right : Path)

/-! ### Texts -/

def keyGlyphs (keys : List Word) : List Glyph := keys.flatMap fun k => [.sign .dot, .word k]

def Path.glyphs (path : Path) : List Glyph := .word path.head.toWord :: keyGlyphs path.keys

def helperGlyphs : List Glyph := [.word jest.toWord, .sign .dot, .word mocked]

def MockType.glyphs (type : MockType) : List Glyph :=
  [.space, .word as, .space, .word jest.toWord, .sign .dot, .word type.word]

def Term.glyphs : Term → List Glyph
  | path p => p.glyphs
  | cast p type => p.glyphs ++ type.glyphs
  | mocked p => helperGlyphs ++ .sign .lparen :: (p.glyphs ++ [.sign .rparen])

def moreGlyphs (terms : List Term) : List Glyph :=
  terms.flatMap fun t => .sign .comma :: .space :: t.glyphs

theorem moreGlyphs_cons (t : Term) (terms : List Term) :
    moreGlyphs (t :: terms) = [.sign .comma, .space] ++ (t.glyphs ++ moreGlyphs terms) := rfl

def groupGlyphs (first : Term) (more : List Term) : List Glyph :=
  .sign .lparen :: (first.glyphs ++ (moreGlyphs more ++ [.sign .rparen]))

def breakGlyphs (broken : Bool) : List Glyph := if broken then [.line] else []

def Suffix.glyphs : Suffix → List Glyph
  | member key => [.sign .dot, .word key]
  | call broken first more => breakGlyphs broken ++ groupGlyphs first more

def suffixGlyphs (suffixes : List Suffix) : List Glyph := suffixes.flatMap Suffix.glyphs

theorem suffixGlyphs_cons (x : Suffix) (suffixes : List Suffix) :
    suffixGlyphs (x :: suffixes) = x.glyphs ++ suffixGlyphs suffixes := rfl

def Head.glyphs : Head → List Glyph
  | group first more => groupGlyphs first more
  | mocked first more => helperGlyphs ++ groupGlyphs first more

def Operand.glyphs : Operand → List Glyph
  | path p => p.glyphs
  | group first more => groupGlyphs (.path first) (more.map .path)

def endGlyphs (closed : Bool) : List Glyph := if closed then [.sign .semi, .line] else [.line]

def Line.glyphs : Line → List Glyph
  | cast operand type closed => operand.glyphs ++ (type.glyphs ++ endGlyphs closed)
  | value head suffixes closed => head.glyphs ++ (suffixGlyphs suffixes ++ endGlyphs closed)
  | assign target right =>
    groupGlyphs target [] ++ (.space :: .sign .equals :: .space :: (right.glyphs ++ endGlyphs true))

def lineGlyphs (lines : List Line) : List Glyph := lines.flatMap Line.glyphs

theorem lineGlyphs_cons (line : Line) (lines : List Line) :
    lineGlyphs (line :: lines) = line.glyphs ++ lineGlyphs lines := rfl

/-! ### Lines of texts -/

section

open Glyph

@[simp] theorem Path.glyphs_isInline (path : Path) : path.glyphs.all isInline = true := by
  simp [Path.glyphs, keyGlyphs, isInline]

@[simp] theorem MockType.glyphs_isInline (type : MockType) : type.glyphs.all isInline = true := by
  cases type <;> rfl

@[simp] theorem Term.glyphs_isInline (t : Term) : t.glyphs.all isInline = true := by
  cases t <;> simp [Term.glyphs, helperGlyphs, isInline]

@[simp] theorem groupGlyphs_isInline (first : Term) (more : List Term) :
    (groupGlyphs first more).all isInline = true := by
  simp [groupGlyphs, moreGlyphs, isInline]

@[simp] theorem Operand.glyphs_isInline (operand : Operand) :
    operand.glyphs.all isInline = true := by
  cases operand <;> simp [Operand.glyphs]

theorem any_isRemark_of_isInline {gs : List Glyph} (h : gs.all isInline = true) :
    gs.any isRemark = false := by
  rw [List.any_eq_false]
  intro x hx hremark
  have hinline := List.all_eq_true.mp h x hx
  cases x <;> simp_all [isInline, isRemark]

/-- Nothing is remarked in lines. -/
theorem lineGlyphs_isRemark (lines : List Line) : (lineGlyphs lines).any isRemark = false := by
  have hpath : ∀ path : Path, path.glyphs.any isRemark = false := fun path =>
    any_isRemark_of_isInline path.glyphs_isInline
  have htype : ∀ type : MockType, type.glyphs.any isRemark = false := fun type =>
    any_isRemark_of_isInline type.glyphs_isInline
  have hoperand : ∀ operand : Operand, operand.glyphs.any isRemark = false := fun operand =>
    any_isRemark_of_isInline operand.glyphs_isInline
  have hgroup : ∀ first more, (groupGlyphs first more).any isRemark = false := fun first more =>
    any_isRemark_of_isInline (groupGlyphs_isInline first more)
  have hsuffix : ∀ x : Suffix, x.glyphs.any isRemark = false := by
    intro x
    cases x with
    | member key => rfl
    | call broken first more => cases broken <;> simp [Suffix.glyphs, breakGlyphs, hgroup, isRemark]
  have hhead : ∀ head : Head, head.glyphs.any isRemark = false := by
    intro head
    cases head <;> simp [Head.glyphs, helperGlyphs, hgroup, isRemark]
  have hend : ∀ closed, (endGlyphs closed).any isRemark = false := by decide
  have hline : ∀ line : Line, line.glyphs.any isRemark = false := by
    intro line
    cases line with
    | cast => simp [Line.glyphs, hoperand, htype, hend]
    | value => simp [Line.glyphs, hhead, hend, suffixGlyphs, hsuffix, List.any_flatMap]
    | assign => simp [Line.glyphs, hgroup, hpath, hend, isRemark]
  simp [lineGlyphs, List.any_flatMap, hline]

end

/-! ### Trees -/

section

variable (p : Place)

def wordSpan (w : Word) : Span := ⟨p.offset, p.offset + Text.byteLength w.chars⟩

def nameNode (name : Name) : Node := .mk (.name name.text) (wordSpan p name.toWord) []

def keyNodes (object : Node) (p : Place) : List Word → Node
  | [] => object
  | k :: keys =>
    keyNodes (member object k.text (wordSpan (p.past (.sign .dot)) k))
      ((p.past (.sign .dot)).past (.word k)) keys

def Path.node (path : Path) : Node :=
  keyNodes (nameNode p path.head) (p.past (.word path.head.toWord)) path.keys

def MockType.node (type : MockType) : Node :=
  let q := p.after [.word jest.toWord, .sign .dot]
  let span : Span := ⟨p.offset, (wordSpan q type.word).stop⟩
  .mk .typeReference span [.mk .qualifiedName span
    [nameNode p jest, .mk (.name type.word.text) (wordSpan q type.word) []]]

/-- The place of the type of a cast behind its operand. -/
def typePlace : Place := p.after [.space, .word as, .space]

def helperNode : Node :=
  member (nameNode p jest) mocked.text (wordSpan (p.after [.word jest.toWord, .sign .dot]) mocked)

def Term.node : Term → Node
  | path q => q.node p
  | cast q type => castNode (q.node p) (type.node (typePlace (p.after q.glyphs)))
  | mocked q =>
    call (helperNode p) [q.node (p.after (helperGlyphs ++ [.sign .lparen]))]
      (p.after (Term.mocked q).glyphs).before.stop

def moreNodes (p : Place) : List Term → List Node
  | [] => []
  | t :: terms =>
    t.node (p.after [.sign .comma, .space]) ::
      moreNodes (p.after (.sign .comma :: .space :: t.glyphs)) terms

def groupNodes (first : Term) (more : List Term) : List Node :=
  first.node (p.past (.sign .lparen)) ::
    moreNodes (p.after (.sign .lparen :: first.glyphs)) more

def Suffix.node (object : Node) : Suffix → Node
  | member key => Parser.member object key.text (wordSpan (p.past (.sign .dot)) key)
  | call broken first more =>
    Parser.call object (groupNodes (p.after (breakGlyphs broken)) first more)
      (p.after (Suffix.call broken first more).glyphs).before.stop

def suffixNodes (object : Node) (p : Place) : List Suffix → Node
  | [] => object
  | x :: suffixes => suffixNodes (x.node p object) (p.after x.glyphs) suffixes

def Head.node : Head → Node
  | group first more =>
    groupNode ⟨p.offset, (p.after (groupGlyphs first more)).before.stop⟩ (groupNodes p first more)
  | mocked first more =>
    call (helperNode p) (groupNodes (p.after helperGlyphs) first more)
      (p.after (Head.mocked first more).glyphs).before.stop

def Operand.node : Operand → Node
  | path q => q.node p
  | group first more => (Head.group (.path first) (more.map .path)).node p

def Line.expression : Line → Node
  | cast operand type _ =>
    castNode (operand.node p) (type.node (typePlace (p.after operand.glyphs)))
  | value head suffixes _ => suffixNodes (head.node p) (p.after head.glyphs) suffixes
  | assign target right =>
    assignmentNode ((Head.group target []).node p)
      (right.node (p.after (groupGlyphs target [] ++ [.space, .sign .equals, .space])))

def Line.node (line : Line) : Node :=
  statementOf (line.expression p) p.offset (p.after line.glyphs).before.stop

/-- What is wrong with a line: nothing can be assigned to a call. -/
def Line.issues : Line → List Issue
  | assign target _ => targetIssues ((Head.group target []).node p)
  | _ => []

def lineNodes (p : Place) : List Line → List Node
  | [] => []
  | l :: lines => l.node p :: lineNodes (p.after l.glyphs) lines

/-- The mistakes in lines, the latest first. -/
def lineIssues (p : Place) : List Line → List Issue
  | [] => []
  | l :: lines => lineIssues (p.after l.glyphs) lines ++ l.issues p

end

/-! ### Spacing -/

/-- No word stands in front. -/
def Parted : List Glyph → Prop
  | .word _ :: _ => False
  | _ => True

section

variable {rest : List Glyph}

theorem word_fits (w : Word) (h : Parted rest) : (Glyph.word w).fits rest = true := by
  unfold Parted at h
  split at h
  · exact h.elim
  · cases rest with
    | nil => rfl
    | cons x rest =>
      cases x with
      | word w => simp_all
      | _ => rfl

theorem Apart.word {w : Word} (h : Apart rest) (hrest : Parted rest) : Apart (.word w :: rest) :=
  ⟨word_fits w hrest, h⟩

theorem keyGlyphs_apart (keys : List Word) (h : Apart rest) (hrest : Parted rest) :
    Apart (keyGlyphs keys ++ rest) ∧ Parted (keyGlyphs keys ++ rest) := by
  induction keys with
  | nil => exact ⟨h, hrest⟩
  | cons k keys ih => exact ⟨⟨rfl, ih.1.word ih.2⟩, trivial⟩

theorem Path.apart (path : Path) (h : Apart rest) (hrest : Parted rest) :
    Apart (path.glyphs ++ rest) := by
  obtain ⟨hkeys, hparted⟩ := keyGlyphs_apart path.keys h hrest
  exact hkeys.word hparted

theorem MockType.apart (type : MockType) (h : Apart rest) (hrest : Parted rest) :
    Apart (type.glyphs ++ rest) :=
  ⟨rfl, rfl, rfl, rfl, rfl, h.word hrest⟩

theorem Term.apart (t : Term) (h : Apart rest) (hrest : Parted rest) : Apart (t.glyphs ++ rest) := by
  cases t with
  | path p => exact p.apart h hrest
  | cast p type =>
    rw [Term.glyphs, List.append_assoc]
    exact p.apart (type.apart h hrest) trivial
  | mocked p =>
    have hpath : Apart (p.glyphs ++ .sign .rparen :: rest) := p.apart ⟨rfl, h⟩ trivial
    simp only [Term.glyphs, helperGlyphs, List.cons_append, List.nil_append, List.append_assoc]
    exact ⟨rfl, rfl, rfl, rfl, hpath⟩

theorem moreGlyphs_apart (terms : List Term) (h : Apart rest) (hrest : Parted rest) :
    Apart (moreGlyphs terms ++ rest) ∧ Parted (moreGlyphs terms ++ rest) := by
  induction terms with
  | nil => exact ⟨h, hrest⟩
  | cons t terms ih =>
    have hterm := t.apart ih.1 ih.2
    simp only [moreGlyphs, List.flatMap_cons, List.cons_append, List.append_assoc] at hterm ⊢
    exact ⟨⟨rfl, rfl, hterm⟩, trivial⟩

theorem groupGlyphs_apart (first : Term) (more : List Term) (h : Apart rest) :
    Apart (groupGlyphs first more ++ rest) := by
  have hclose : Apart (.sign .rparen :: rest) := ⟨rfl, h⟩
  obtain ⟨hmore, hparted⟩ := moreGlyphs_apart more hclose trivial
  have hfirst := first.apart hmore hparted
  simp only [groupGlyphs, List.cons_append, List.append_assoc, List.nil_append]
  exact ⟨rfl, hfirst⟩

theorem endGlyphs_apart (closed : Bool) (h : Apart rest) :
    Apart (endGlyphs closed ++ rest) ∧ Parted (endGlyphs closed ++ rest) := by
  cases closed with
  | true => exact ⟨⟨rfl, rfl, h⟩, trivial⟩
  | false => exact ⟨⟨rfl, h⟩, trivial⟩

theorem Suffix.apart (x : Suffix) (h : Apart rest) (hrest : Parted rest) :
    Apart (x.glyphs ++ rest) ∧ Parted (x.glyphs ++ rest) := by
  cases x with
  | member key => exact ⟨⟨rfl, h.word hrest⟩, trivial⟩
  | call broken first more =>
    have hgroup := groupGlyphs_apart first more h
    cases broken with
    | true => exact ⟨⟨rfl, hgroup⟩, trivial⟩
    | false => exact ⟨hgroup, trivial⟩

theorem suffixGlyphs_apart (suffixes : List Suffix) (h : Apart rest) (hrest : Parted rest) :
    Apart (suffixGlyphs suffixes ++ rest) ∧ Parted (suffixGlyphs suffixes ++ rest) := by
  induction suffixes with
  | nil => exact ⟨h, hrest⟩
  | cons x suffixes ih =>
    have hfirst := x.apart ih.1 ih.2
    rwa [← List.append_assoc] at hfirst

theorem Head.apart (head : Head) (h : Apart rest) : Apart (head.glyphs ++ rest) := by
  cases head with
  | group first more => exact groupGlyphs_apart first more h
  | mocked first more => exact ⟨rfl, rfl, rfl, groupGlyphs_apart first more h⟩

theorem Operand.apart (operand : Operand) (h : Apart rest) (hrest : Parted rest) :
    Apart (operand.glyphs ++ rest) := by
  cases operand with
  | path p => exact p.apart h hrest
  | group first more => exact groupGlyphs_apart _ _ h

theorem Line.apart (line : Line) (h : Apart rest) : Apart (line.glyphs ++ rest) := by
  cases line with
  | cast operand type closed =>
    obtain ⟨hend, hparted⟩ := endGlyphs_apart closed h
    simp only [Line.glyphs, List.append_assoc]
    exact operand.apart (type.apart hend hparted) trivial
  | value head suffixes closed =>
    obtain ⟨hend, hparted⟩ := endGlyphs_apart closed h
    simp only [Line.glyphs, List.append_assoc]
    exact head.apart (suffixGlyphs_apart suffixes hend hparted).1
  | assign target right =>
    obtain ⟨hend, hparted⟩ := endGlyphs_apart true h
    simp only [Line.glyphs, List.append_assoc, List.cons_append]
    exact groupGlyphs_apart target [] ⟨rfl, rfl, rfl, right.apart hend hparted⟩

theorem lineGlyphs_apart (lines : List Line) : Apart (lineGlyphs lines) := by
  induction lines with
  | nil => trivial
  | cons line lines ih => exact line.apart ih

end

end Script
end CastLint
