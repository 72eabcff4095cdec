import CastLint.Proofs.ScriptFixes

/-! Scripts with remarks. Their statements are casts and the calls that replace casts, each with a
semicolon, several of them on a line. A line may end with a remark, and so may the first part of a
cast whose type stands on the next line. -/

namespace CastLint
namespace Script

open Syntax Syntax.Parser

/-- What a script with remarks is made of: casts, whose types may stand behind a remark, calls that
replace casts, spaces, and ends of lines. -/
inductive Piece where
  | cast (operand : Operand) (type : MockType) (remark : Option Remark)
  | mocked (operand : Operand)
  | space
  | feed (remark : Option Remark)

/-! ### Texts -/

/-- What stands between the `as` of a cast and the type. -/
def gapGlyphs : Option Remark → List Glyph
  | none => [.space]
  | some r => [.space, .remark r]

/-- What stands between the operand of a cast and the type. -/
def asGlyphs (remark : Option Remark) : List Glyph := .space :: .word as :: gapGlyphs remark

def MockType.nameGlyphs (type : MockType) : List Glyph :=
  [.word jest.toWord, .sign .dot, .word type.word]

def castGlyphs (operand : Operand) (type : MockType) (remark : Option Remark) : List Glyph :=
  operand.glyphs ++ (asGlyphs remark ++ type.nameGlyphs)

def feedGlyphs : Option Remark → List Glyph
  | none => [.line]
  | some r => [.remark r]

namespace Piece

def glyphs : Piece → List Glyph
  | cast operand type remark => castGlyphs operand type remark ++ [.sign .semi]
  | mocked operand => operand.mocked.glyphs ++ [.sign .semi]
  | space => [.space]
  | feed remark => feedGlyphs remark

end Piece

def pieceGlyphs (pieces : List Piece) : List Glyph := pieces.flatMap Piece.glyphs

@[simp] theorem pieceGlyphs_nil : pieceGlyphs [] = [] := rfl

theorem pieceGlyphs_cons (x : Piece) (pieces : List Piece) :
    pieceGlyphs (x :: pieces) = x.glyphs ++ pieceGlyphs pieces := rfl

theorem pieceGlyphs_cast (operand : Operand) (type : MockType) (remark : Option Remark)
    (pieces : List Piece) :
    pieceGlyphs (.cast operand type remark :: pieces) =
      castGlyphs operand type remark ++ (.sign .semi :: pieceGlyphs pieces) := by
  rw [pieceGlyphs_cons, Piece.glyphs, List.append_assoc]
  rfl

section

variable {rest : List Glyph}

theorem castGlyphs_apart (operand : Operand) (type : MockType) (remark : Option Remark)
    (h : Apart rest) (hrest : Parted rest) : Apart (castGlyphs operand type remark ++ rest) := by
  have htype : Apart (type.nameGlyphs ++ rest) := ⟨rfl, rfl, h.word hrest⟩
  have hgap : Apart (asGlyphs remark ++ (type.nameGlyphs ++ rest)) := by
    cases remark with
    | none => exact ⟨rfl, rfl, rfl, htype⟩
    | some r => exact ⟨rfl, rfl, rfl, rfl, htype⟩
  simp only [castGlyphs, List.append_assoc]
  exact operand.apart hgap trivial

theorem Piece.apart (x : Piece) (h : Apart rest) : Apart (x.glyphs ++ rest) := by
  have hsemi : Apart (.sign .semi :: rest) := ⟨rfl, h⟩
  cases x with
  | cast operand type remark =>
    rw [Piece.glyphs, List.append_assoc]
    exact castGlyphs_apart operand type remark hsemi trivial
  | mocked operand =>
    rw [Piece.glyphs, List.append_assoc]
    exact operand.mocked.apart hsemi
  | space => exact ⟨rfl, h⟩
  | feed remark => cases remark <;> exact ⟨rfl, h⟩

theorem pieceGlyphs_apart (pieces : List Piece) : Apart (pieceGlyphs pieces) := by
  induction pieces with
  | nil => trivial
  | cons x pieces ih => exact x.apart ih

end

/-! ### Trees -/

def castAt (p : Place) (operand : Operand) (type : MockType) (remark : Option Remark) : Cast :=
  let node := type.node ((p.after operand.glyphs).after (asGlyphs remark))
  ⟨operand.node p, node, ⟨(operand.node p).start, node.stop⟩⟩

def Piece.nodes (p : Place) (x : Piece) : List Node :=
  match x with
  | cast operand type remark =>
    let cast := castAt p operand type remark
    [statementOf (castNode cast.operand cast.type) p.offset (p.after x.glyphs).before.stop]
  | mocked operand => [statementOf (operand.mocked.node p) p.offset (p.after x.glyphs).before.stop]
  | _ => []

def pieceNodes (p : Place) : List Piece → List Node
  | [] => []
  | x :: pieces => x.nodes p ++ pieceNodes (p.after x.glyphs) pieces

/-! ### Reading -/

/-- The first glyph is a token. -/
def StartsToken : List Glyph → Prop
  | .word _ :: _ | .sign _ :: _ => True
  | _ => False

section

variable {d : Dialect} {g : Grammar} {p : Place} {gs rest : List Glyph}

theorem StartsToken.stand_start (h : StartsToken gs) :
    (p.stand (gs ++ rest)).span.start = p.offset := by
  unfold StartsToken at h
  split at h
  · rfl
  · rfl
  · exact h.elim

/-- Less stands behind a semicolon than behind the first token in front of it. -/
theorem StartsToken.length_lt_room (h : StartsToken gs) :
    (render rest).length < (p.stand (gs ++ .sign .semi :: rest)).room := by
  unfold StartsToken at h
  split at h
  · change _ < (render (_ ++ .sign .semi :: rest)).length
    simp only [render_append, render_cons, Glyph.chars, List.length_append, List.length_singleton]
    omega
  · change _ < (render (_ ++ .sign .semi :: rest)).length
    simp only [render_append, render_cons, Glyph.chars, List.length_append, List.length_singleton]
    omega
  · exact h.elim

theorem Operand.startsToken (operand : Operand) (more : List Glyph) :
    StartsToken (operand.glyphs ++ more) := by
  cases operand <;> trivial

theorem statement_reads {node : Node} (hstart : StartsToken gs)
    (h : Phrase d g.assign (p.stand (gs ++ .sign .semi :: rest)) node
      ((p.after gs).stand (.sign .semi :: rest)))
    (hrest : Apart (.sign .semi :: rest)) (hname : node.name? = none) :
    Reads d {} g.over.moduleItem (p.stand (gs ++ .sign .semi :: rest))
      (statementOf node p.offset (p.after (gs ++ [.sign .semi])).before.stop)
      ((p.after (gs ++ [.sign .semi])).stand rest) [] := by
  have hend : StatementEnd ((p.after gs).stand (.sign .semi :: rest))
      ((p.after (gs ++ [.sign .semi])).stand rest) := by
    rw [Place.after_append]
    exact .semi rfl (sign_step hrest)
  have hitem := moduleItem_reads h.opens h.reads hname hend
    (hend.before_le h.past.before_le h.past.start_le)
  rwa [hstart.stand_start, Place.stand_before] at hitem

theorem MockType.castTail_as (type : MockType) (remark : Option Remark) (hd : d.typescript = true)
    (h : Apart (asGlyphs remark ++ (type.nameGlyphs ++ rest)))
    (hrest : endsOperators (((p.after (asGlyphs remark)).after type.nameGlyphs).stand rest) = true)
    (hline : p.line = false) :
    CastTail d g.over.over (p.stand (asGlyphs remark ++ (type.nameGlyphs ++ rest)))
      (type.node (p.after (asGlyphs remark)))
      (((p.after (asGlyphs remark)).after type.nameGlyphs).stand rest) := by
  have hname := type.typeName (p := p.after (asGlyphs remark)) h.of_append hrest
  have hword : (p.stand (asGlyphs remark ++ (type.nameGlyphs ++ rest))).Step
      ((p.after (asGlyphs remark)).stand (type.nameGlyphs ++ rest)) := by
    cases remark <;> exact word_step h.2
  exact ⟨rfl, hline, _, _, _, hword, hname, typeNode_reads hd hname⟩

theorem castAt_phrase (operand : Operand) (type : MockType) (remark : Option Remark)
    (hd : d.typescript = true)
    (h : Apart (castGlyphs operand type remark ++ .sign .semi :: rest)) :
    Phrase d g.over.over.over.over.over.over.assign
      (p.stand (castGlyphs operand type remark ++ .sign .semi :: rest))
      (castNode (castAt p operand type remark).operand (castAt p operand type remark).type)
      ((p.after (castGlyphs operand type remark)).stand (.sign .semi :: rest)) := by
  simp only [castGlyphs, List.append_assoc, Place.after_append] at h ⊢
  have htype := type.castTail_as (g := g.over.over.over) (p := p.after operand.glyphs) remark hd
    h.of_append rfl operand.after_line
  have hoperand := operand.unaryNode_phrase (g := g) (p := p) hd h rfl
  have hcast := binaryNode_cast_phrase hd hoperand
    (ne_of_isChainKind operand.node_kind .arrow rfl) htype
  exact assignNode_phrase hcast rfl rfl (by simp [Sign.mark])

theorem mocked_phrase (operand : Operand) (hd : d.typescript = true)
    (h : Apart (operand.mocked.glyphs ++ .sign .semi :: rest)) :
    Phrase d g.over.over.over.over.over.over.assign
      (p.stand (operand.mocked.glyphs ++ .sign .semi :: rest)) (operand.mocked.node p)
      ((p.after operand.mocked.glyphs).stand (.sign .semi :: rest)) := by
  have hphrase := operand.mocked.callOrMember_phrase (g := g) (p := p) [] hd h rfl
  exact callOrMember_assign_phrase hd hphrase operand.mocked.node_kind rfl rfl
    (by simp [Sign.mark])

theorem statement_items {node : Node} {nodes : List Node} {v : Stand} (hstart : StartsToken gs)
    (h : Phrase d g.assign (p.stand (gs ++ .sign .semi :: rest)) node
      ((p.after gs).stand (.sign .semi :: rest)))
    (hrest : Apart (.sign .semi :: rest)) (hname : node.name? = none)
    (hitems : Items d g.over.moduleItem ((p.after (gs ++ [.sign .semi])).stand rest) nodes v []) :
    Items d g.over.moduleItem (p.stand (gs ++ .sign .semi :: rest))
      (statementOf node p.offset (p.after (gs ++ [.sign .semi])).before.stop :: nodes) v [] := by
  have hroom := ((p.after (gs ++ [.sign .semi])).stand_room_le rest).1
  exact .cons (ne_of_opensOperand h.opens .eof rfl) (hroom.trans_lt hstart.length_lt_room)
    (statement_reads hstart h hrest hname) hitems

/-- A remarked script is read statement by statement. -/
theorem pieceNodes_items (pieces : List Piece) (hd : d.typescript = true) :
    Items d g.over.over.over.over.over.over.over.moduleItem (p.stand (pieceGlyphs pieces))
      (pieceNodes p pieces) ((p.after (pieceGlyphs pieces)).stand []) [] := by
  induction pieces generalizing p with
  | nil => exact .nil
  | cons x pieces ih =>
    have hrest := ih (p := p.after x.glyphs)
    have happart := x.apart (pieceGlyphs_apart pieces)
    rw [pieceGlyphs_cons, Place.after_append]
    cases x with
    | cast operand type remark =>
      rw [Piece.glyphs, List.append_assoc] at happart ⊢
      exact statement_items (operand.startsToken _)
        (castAt_phrase operand type remark hd happart) happart.of_append rfl hrest
    | mocked operand =>
      rw [Piece.glyphs, List.append_assoc] at happart ⊢
      exact statement_items (by cases operand <;> trivial) (mocked_phrase operand hd happart)
        happart.of_append operand.mocked.node_name? hrest
    | space => exact hrest
    | feed remark => cases remark <;> exact hrest

theorem read_pieces (pieces : List Piece) (hd : d.typescript = true) :
    read d (render (pieceGlyphs pieces)) = ⟨some (pieceNodes Place.origin pieces), []⟩ := by
  have hhead := head?_render_ne (pieceGlyphs pieces) (c := '#') (by decide) (by decide)
  exact read_items (pieceGlyphs_apart pieces) hhead
    (fun g => pieceNodes_items (g := g.over) pieces hd) rfl

end

end Script
end CastLint
