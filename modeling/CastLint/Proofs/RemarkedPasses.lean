import CastLint.Proofs.RemarkedLines
import CastLint.Proofs.ScriptPasses

/-! Passes over scripts with remarks. A pass changes the casts on lines that are not switched off. A
cast whose type stands on the next line loses its remark, and if nothing but that remark switches
the next line off, then the next pass changes casts that were switched off at first. -/

namespace CastLint
namespace Script

open Syntax Lint

/-! ### What is switched off -/

namespace Piece

def isCast : Piece → Bool
  | cast _ _ _ => true
  | _ => false

def rewritten : Piece → Piece
  | cast operand _ _ => mocked operand
  | x => x

end Piece

/-- What a pass makes of pieces whose first line may be switched off by the line in front. -/
def passFrom (off : Bool) : List Piece → List Piece
  | [] => []
  | x :: pieces =>
    (if off || offBy (pieceGlyphs (x :: pieces)) then x else x.rewritten) ::
      passFrom (offAfter off x.glyphs) pieces

def allOff (off : Bool) : List Piece → Bool
  | [] => true
  | x :: pieces =>
    (!x.isCast || (off || offBy (pieceGlyphs (x :: pieces)))) &&
      allOff (offAfter off x.glyphs) pieces

def castsHere : List Piece → Bool
  | [] => false
  | .cast _ _ _ :: _ => true
  | .feed _ :: _ => false
  | _ :: pieces => castsHere pieces

/-- A cast that is not switched off holds the remark which alone switches off the casts on the next
line. -/
def dropsFrom (off : Bool) : List Piece → Bool
  | [] => false
  | .cast _ _ (some r) :: pieces =>
    (!off && !r.switchesOff 0 && r.switchesOff 1 && castsHere pieces &&
        !offBy (pieceGlyphs pieces)) || dropsFrom (r.switchesOff 1) pieces
  | x :: pieces => dropsFrom (offAfter off x.glyphs) pieces

theorem offBy_passFrom {off : Bool} {pieces : List Piece}
    (h : (off || offBy (pieceGlyphs pieces)) = true) :
    offBy (pieceGlyphs (passFrom off pieces)) = offBy (pieceGlyphs pieces) := by
  induction pieces with
  | nil => rfl
  | cons x pieces ih =>
    rw [passFrom, if_pos h]
    cases x with
    | cast operand type remark =>
      cases remark with
      | none => simpa using ih (by simpa using h)
      | some r => simp
    | mocked operand => simpa using ih (by simpa using h)
    | space => exact ih h
    | feed remark => cases remark <;> rfl

theorem passFrom_eq_self {off : Bool} {pieces : List Piece} (h : allOff off pieces = true) :
    passFrom off pieces = pieces := by
  induction pieces generalizing off with
  | nil => rfl
  | cons x pieces ih =>
    simp only [allOff, Bool.and_eq_true] at h
    rw [passFrom, ih h.2]
    cases x with
    | cast operand type remark =>
      have hoff := h.1
      simp only [Piece.isCast, Bool.not_true, Bool.false_or] at hoff
      rw [if_pos hoff]
    | _ => simp [Piece.rewritten]

/-- Behind a pass all casts are switched off, unless one was so only by a remark that the pass
dropped. The first line may lose the line in front of it, and that matters if it holds a cast. -/
theorem allOff_passFrom (off left : Bool) (hleft : left = true → off = true)
    (pieces : List Piece) :
    allOff left (passFrom off pieces) = true ↔
      (off = true → left = false → castsHere pieces = true → offBy (pieceGlyphs pieces) = true) ∧
        dropsFrom off pieces = false := by
  induction pieces generalizing off left with
  | nil => simp [passFrom, allOff, castsHere, dropsFrom]
  | cons x pieces ih =>
    cases x with
    | cast operand type remark =>
      cases remark with
      | none =>
        have hrest := ih off left hleft
        cases hoff : off || offBy (pieceGlyphs pieces) with
        | true =>
          have hkeep := offBy_passFrom hoff
          simp only [passFrom, allOff, castsHere, dropsFrom, Piece.isCast, offBy_cast_none, hoff,
            offAfter_cast_none, if_true, hkeep, Bool.and_eq_true, hrest]
          cases off <;> cases left <;> simp_all
        | false =>
          obtain ⟨rfl, -⟩ := Bool.or_eq_false_iff.mp hoff
          simp [passFrom, allOff, castsHere, dropsFrom, Piece.isCast, Piece.rewritten, hoff, hrest]
      | some r =>
        cases hoff : off || r.switchesOff 0 with
        | true =>
          have hrest := ih (r.switchesOff 1) (r.switchesOff 1) id
          simp only [passFrom, allOff, castsHere, dropsFrom, Piece.isCast, offBy_cast_some, hoff,
            offAfter_cast_some, if_true, Bool.and_eq_true, hrest]
          cases off <;> cases left <;> simp_all
        | false =>
          obtain ⟨rfl, hown⟩ := Bool.or_eq_false_iff.mp hoff
          obtain rfl : left = false := by simpa using hleft
          have hrest := ih (r.switchesOff 1) false (by simp)
          simp [passFrom, allOff, dropsFrom, Piece.isCast, Piece.rewritten, hown, hrest]
    | mocked operand =>
      have hrest := ih off left hleft
      simp [passFrom, allOff, castsHere, dropsFrom, Piece.isCast, Piece.rewritten, hrest]
    | space =>
      have hrest := ih off left hleft
      simp [passFrom, allOff, castsHere, dropsFrom, Piece.isCast, Piece.rewritten, hrest]
    | feed remark =>
      have hrest := ih (offAfter off (Piece.feed remark).glyphs)
        (offAfter off (Piece.feed remark).glyphs) id
      have hsame : offAfter left (Piece.feed remark).glyphs =
          offAfter off (Piece.feed remark).glyphs := by
        cases remark <;> rfl
      simp only [passFrom, allOff, castsHere, dropsFrom, Piece.isCast, Piece.rewritten, hsame,
        ite_self, Bool.not_false, Bool.true_or, Bool.true_and, hrest]
      simp only [Bool.false_eq_true, false_implies, implies_true, true_and, and_iff_right_iff_imp]
      intro _ hon hoff
      simp [hon] at hoff

/-! ### Casts that are left -/

def castTexts : List Piece → List (List Char)
  | [] => []
  | .cast operand type remark :: pieces =>
    render (castGlyphs operand type remark) :: castTexts pieces
  | _ :: pieces => castTexts pieces

/-- A pass leaves fewer casts unless all are switched off. -/
theorem castTexts_passFrom_length (off : Bool) (pieces : List Piece) :
    (castTexts (passFrom off pieces)).length ≤ (castTexts pieces).length ∧
      (allOff off pieces = false →
        (castTexts (passFrom off pieces)).length < (castTexts pieces).length) := by
  induction pieces generalizing off with
  | nil => simp [passFrom, castTexts, allOff]
  | cons x pieces ih =>
    obtain ⟨hle, hlt⟩ := ih (offAfter off x.glyphs)
    cases x with
    | cast operand type remark =>
      cases hoff : off || offBy (pieceGlyphs (.cast operand type remark :: pieces)) with
      | true =>
        simp only [passFrom, hoff, if_true, castTexts, allOff, List.length_cons, Bool.or_true,
          Bool.true_and]
        exact ⟨Nat.succ_le_succ hle, fun h => Nat.succ_lt_succ (hlt h)⟩
      | false =>
        simp only [passFrom, hoff, Bool.false_eq_true, if_false, Piece.rewritten, castTexts,
          List.length_cons]
        exact ⟨hle.trans (Nat.le_succ _), fun _ => Nat.lt_succ_of_le hle⟩
    | mocked => simpa [passFrom, castTexts, allOff, Piece.rewritten, Piece.isCast] using ih off
    | space => simpa [passFrom, castTexts, allOff, Piece.rewritten, Piece.isCast] using ih off
    | feed => simpa [passFrom, castTexts, allOff, Piece.rewritten, Piece.isCast] using ⟨hle, hlt⟩

theorem castTexts_iterate_length_le (k : ℕ) (pieces : List Piece) :
    (castTexts ((passFrom false)^[k] pieces)).length ≤ (castTexts pieces).length := by
  induction k generalizing pieces with
  | zero => exact Nat.le_refl _
  | succ k ih =>
    exact (ih (passFrom false pieces)).trans (castTexts_passFrom_length false pieces).1

/-! ### Chunks -/

/-- What a pass changes of a piece that may be switched off. -/
def Piece.chunks (off : Bool) (x : Piece) : List Chunk :=
  match x with
  | cast operand type remark =>
    if off then [.keep (render x.glyphs)]
    else
      [.change (render (castGlyphs operand type remark)) (render operand.mocked.glyphs), .keep [';']]
  | _ => [.keep (render x.glyphs)]

def pieceChunks (off : Bool) : List Piece → List Chunk
  | [] => []
  | x :: pieces =>
    x.chunks (off || offBy (pieceGlyphs (x :: pieces))) ++
      pieceChunks (offAfter off x.glyphs) pieces

theorem Piece.chunks_old (off : Bool) (x : Piece) :
    (x.chunks off).flatMap Chunk.old = render x.glyphs := by
  cases x with
  | cast operand type remark =>
    cases off <;> simp [chunks, glyphs, Glyph.chars, Sign.char]
  | _ => simp [chunks]

theorem Piece.chunks_new (off : Bool) (x : Piece) :
    (x.chunks off).flatMap Chunk.new = render (if off then x else x.rewritten).glyphs := by
  cases x with
  | cast operand type remark =>
    cases off <;> simp [chunks, rewritten, glyphs, Glyph.chars, Sign.char]
  | _ => simp [chunks, rewritten]

theorem pieceChunks_old (off : Bool) (pieces : List Piece) :
    (pieceChunks off pieces).flatMap Chunk.old = render (pieceGlyphs pieces) := by
  induction pieces generalizing off with
  | nil => rfl
  | cons x pieces ih =>
    rw [pieceChunks, List.flatMap_append, x.chunks_old, ih, pieceGlyphs_cons, render_append]

theorem pieceChunks_new (off : Bool) (pieces : List Piece) :
    (pieceChunks off pieces).flatMap Chunk.new = render (pieceGlyphs (passFrom off pieces)) := by
  induction pieces generalizing off with
  | nil => rfl
  | cons x pieces ih =>
    rw [pieceChunks, List.flatMap_append, x.chunks_new, ih, passFrom, ← render_append]
    rfl

/-- A pass changes nothing exactly if all casts are switched off. -/
theorem chunkEdits_pieceChunks_eq_nil_iff (offset : ℕ) (off : Bool) (pieces : List Piece) :
    chunkEdits offset (pieceChunks off pieces) = [] ↔ allOff off pieces = true := by
  induction pieces generalizing offset off with
  | nil => simp [pieceChunks, chunkEdits, allOff]
  | cons x pieces ih =>
    cases x with
    | cast operand type remark =>
      cases hoff : off || offBy (pieceGlyphs (.cast operand type remark :: pieces)) with
      | true => simp [pieceChunks, Piece.chunks, chunkEdits, allOff, hoff, ih]
      | false => simp [pieceChunks, Piece.chunks, chunkEdits, allOff, Piece.isCast, hoff]
    | _ => simp [pieceChunks, Piece.chunks, chunkEdits, allOff, Piece.isCast, ih]

/-! ### Casts -/

def pieceCasts (p : Place) : List Piece → List Cast
  | [] => []
  | .cast operand type remark :: pieces =>
    castAt p operand type remark ::
      pieceCasts (p.after (Piece.cast operand type remark).glyphs) pieces
  | x :: pieces => pieceCasts (p.after x.glyphs) pieces

theorem Operand.casts_mocked (operand : Operand) (p : Place) :
    casts [operand.mocked.node p] = [] := by
  have hhelper : casts [helperNode p] = [] := rfl
  have hargs : ∀ (q : Place) (first : Path) (more : List Path),
      casts (groupNodes q (.path first) (more.map .path)) = [] := by
    intro q first more
    rw [groupNodes, casts_cons, moreNodes_casts, Term.node, first.casts_node]
    rfl
  cases operand with
  | path first =>
    rw [Operand.mocked, Head.node, call_casts, hhelper]
    exact hargs _ first []
  | group first more =>
    rw [Operand.mocked, Head.node, call_casts, hhelper]
    exact hargs _ first more

theorem casts_pieceNodes (p : Place) (pieces : List Piece) :
    casts (pieceNodes p pieces) = pieceCasts p pieces := by
  induction pieces generalizing p with
  | nil => rfl
  | cons x pieces ih =>
    rw [pieceNodes, casts_append, ih]
    cases x with
    | cast operand type remark =>
      have htype : casts [(castAt p operand type remark).type] = [] := rfl
      have hoperand : casts [(castAt p operand type remark).operand] = [] := operand.casts_node p
      simp only [Piece.nodes, Parser.statementOf, Parser.castNode]
      rw [casts_node rfl, casts_cast, htype, hoperand]
      rfl
    | mocked operand =>
      simp only [Piece.nodes, Parser.statementOf]
      rw [casts_node rfl, operand.casts_mocked]
      rfl
    | _ => rfl

section

variable {file : Source.File} {front : List Glyph} {operand : Operand} {type : MockType}
  {remark : Option Remark} {back : List Glyph}

theorem castAt_span (p : Place) (operand : Operand) (type : MockType) (remark : Option Remark) :
    (castAt p operand type remark).span =
      ⟨p.offset, p.offset + Text.byteLength (render (castGlyphs operand type remark))⟩ := by
  have hstop : (castAt p operand type remark).span.stop =
      (p.after (castGlyphs operand type remark)).offset := by
    rw [castGlyphs, Place.after_append, Place.after_append]
    rfl
  have hstart : (castAt p operand type remark).span.start = p.offset := operand.node_start
  rw [← Place.after_offset, ← hstop, ← hstart]

theorem origin_after_offset (front : List Glyph) :
    (Place.origin.after front).offset = Text.byteLength (render front) := by
  rw [Place.after_offset]
  exact Nat.zero_add _

/-- Whether a cast is switched off can be told from the text in front of it and from the end of its
line. -/
theorem isSwitchedOff_castAt (hdirectives : file.directives = Source.Directives.ofText file.chars)
    (hchars : file.chars = render (front ++ back)) :
    PreferMocked.isSwitchedOff file (castAt (Place.origin.after front) operand type remark) =
      (offAfter false front || offBy back) := by
  have hline : (file.locationOf
      (castAt (Place.origin.after front) operand type remark).span.start).line =
      1 + feeds front := by
    rw [castAt_span, origin_after_offset, Source.File.locationOf, hchars, render_append,
      Text.locate_append, Text.Location.advanceAll_line, count_render]
    rfl
  rw [PreferMocked.isSwitchedOff, hline, hdirectives, hchars, isDisabled_render]

theorem holds_of_render {gs : List Glyph} (hchars : file.chars = render (front ++ (gs ++ back))) :
    Holds file.chars (Place.origin.after front) gs :=
  ⟨render front, render back, by simp [hchars], (origin_after_offset front).symm⟩

theorem byteLength_behind_operand_pos (type : MockType) (remark : Option Remark) :
    0 < Text.byteLength (render (asGlyphs remark ++ type.nameGlyphs)) := by
  have hname : 0 < Text.byteLength (render type.nameGlyphs) := by cases type <;> decide
  rw [render_append, Text.byteLength_append]
  omega

theorem castAt_replaces (hchars : file.chars =
      render (front ++ (castGlyphs operand type remark ++ back))) :
    PreferMocked.Replaces file.chars (castAt (Place.origin.after front) operand type remark)
      ⟨Text.byteLength (render front), Text.byteLength (render front) +
        Text.byteLength (render (castGlyphs operand type remark)),
        render operand.mocked.glyphs⟩ := by
  have hreplaces := operand.replaces (by cases type <;> rfl) rfl
    (castAt_span (Place.origin.after front) operand type remark) (holds_of_render hchars)
    (byteLength_behind_operand_pos type remark)
  rwa [origin_after_offset] at hreplaces

theorem pieceCasts_rewritten (front : List Glyph) (pieces : List Piece)
    (hdirectives : file.directives = Source.Directives.ofText file.chars)
    (hchars : file.chars = render (front ++ pieceGlyphs pieces)) :
    PreferMocked.Rewritten file (pieceCasts (Place.origin.after front) pieces)
      (chunkEdits (Text.byteLength (render front))
        (pieceChunks (offAfter false front) pieces)) := by
  induction pieces generalizing front with
  | nil => exact .nil
  | cons x pieces ih =>
    have hrest := ih (front ++ x.glyphs) (by rw [hchars, pieceGlyphs_cons, List.append_assoc])
    rw [Place.after_append, offAfter_append, render_append, Text.byteLength_append] at hrest
    rw [pieceChunks, chunkEdits_append, x.chunks_old]
    cases x with
    | cast operand type remark =>
      have hswitched : PreferMocked.isSwitchedOff file
          (castAt (Place.origin.after front) operand type remark) = _ :=
        isSwitchedOff_castAt hdirectives hchars
      cases hoff : offAfter false front ||
          offBy (pieceGlyphs (.cast operand type remark :: pieces)) with
      | true => exact .leave (hswitched.trans hoff) hrest
      | false =>
        rw [pieceGlyphs_cast] at hchars
        exact .take (hswitched.trans hoff) (castAt_replaces hchars) hrest
    | _ => exact hrest

end

/-! ### Texts of pieces -/

def pieceText (pieces : List Piece) : String := String.ofList (render (pieceGlyphs pieces))

section

variable {name : String} (hts : (Source.Language.ofFilename name).isTypescript = true)
  (pieces : List Piece)

theorem chars_pieces (name : String) (pieces : List Piece) :
    (Source.File.ofText name (pieceText pieces)).chars = render (pieceGlyphs pieces) :=
  String.toList_ofList

include hts

theorem items_pieces :
    (Source.File.ofText name (pieceText pieces)).module.items =
      some (pieceNodes Place.origin pieces) := by
  rw [pieceText, module_render]
  simp only [read_pieces pieces (Source.Language.dialect_typescript hts)]

theorem hasProblems_pieces :
    (Source.File.ofText name (pieceText pieces)).hasProblems = false := by
  rw [Source.File.hasProblems, pieceText, module_render]
  simp only [read_pieces pieces (Source.Language.dialect_typescript hts)]
  rfl

theorem casts_pieces :
    (Source.File.ofText name (pieceText pieces)).casts = pieceCasts Place.origin pieces := by
  rw [Source.File.casts, items_pieces hts, Option.map_some, Option.getD_some, casts_pieceNodes]

theorem fixOnce_pieces :
    fixOnce (Source.File.ofText name) ({} : Engine).analyze (pieceText pieces) =
      .ok ⟨pieceText (passFrom false pieces),
        (chunkEdits 0 (pieceChunks false pieces)).length, 0⟩ := by
  have hchars := chars_pieces name pieces
  have hlanguage : (Source.File.ofText name (pieceText pieces)).language.isTypescript = true := hts
  have hrewritten : PreferMocked.Rewritten (Source.File.ofText name (pieceText pieces))
      (casts (pieceNodes Place.origin pieces)) (chunkEdits 0 (pieceChunks false pieces)) := by
    rw [casts_pieceNodes]
    exact pieceCasts_rewritten [] pieces rfl hchars
  have hpass := PreferMocked.applyFixes_rewritten hlanguage (items_pieces hts pieces)
    (hchars.trans (pieceChunks_old false pieces).symm) hrewritten
  rw [fixOnce, hpass, pieceChunks_new]
  rfl

/-- Fixing pieces makes passes over them, up to the limit or until all casts are switched off. -/
theorem fixUpTo_pieces (left : ℕ) :
    ∃ r k, fixUpTo (Source.File.ofText name) ({} : Engine).analyze left (pieceText pieces) = .ok r ∧
      r.output = pieceText ((passFrom false)^[k] pieces) ∧
      (k = left ∨ allOff false ((passFrom false)^[k] pieces) = true) := by
  induction left generalizing pieces with
  | zero => exact ⟨_, 0, rfl, rfl, Or.inl rfl⟩
  | succ left ih =>
    have hpass := fixOnce_pieces hts pieces
    have hedits := chunkEdits_pieceChunks_eq_nil_iff 0 false pieces
    cases hoff : allOff false pieces with
    | true =>
      have hzero : (chunkEdits 0 (pieceChunks false pieces)).length = 0 := by simp [hedits, hoff]
      exact ⟨_, 0, fixUpTo_succ_eq_ok_iff.mpr ⟨_, hpass, Or.inl ⟨hzero, rfl⟩⟩, rfl, Or.inr hoff⟩
    | false =>
      have hsome : 0 < (chunkEdits 0 (pieceChunks false pieces)).length :=
        List.length_pos_of_ne_nil (by simp [hedits, hoff])
      obtain ⟨r, k, hr, houtput, hend⟩ := ih (passFrom false pieces)
      exact ⟨_, k + 1, fixUpTo_succ_eq_ok_iff.mpr ⟨_, hpass, Or.inr ⟨hsome, r, hr, rfl⟩⟩, houtput,
        hend.imp_left (congrArg (· + 1))⟩

end

end Script
end CastLint
