import CastLint.Proofs.RemarkedPasses
import Mathlib.Data.Multiset.Basic

/-! Casts that directives switch off. A pass leaves them as they are, apart from casts inside them on
lines that are not switched off. But it may drop the comment of a directive with the rest of a cast
that is not switched off, and then the next pass changes what that directive was for. -/

namespace CastLint

namespace Lint

open Syntax Script

/-- A directive in the text of a file switches the rule off on the line where a cast starts. -/
def IsSuppressed (file : Source.File) (cast : Cast) : Prop :=
  ∃ ref ∈ PreferMocked.ruleNames,
    Source.SwitchedOff file.chars (file.locationOf cast.span.start).line ref

instance isSuppressedDecidable (file : Source.File) (cast : Cast) :
    Decidable (IsSuppressed file cast) :=
  inferInstanceAs (Decidable (∃ ref ∈ PreferMocked.ruleNames, _))

def mockCasts (file : Source.File) : List Cast := file.casts.filter PreferMocked.isMockCast

/-- The casts to mock types that are suppressed and do not lie inside one that is not. -/
def protectedCasts (file : Source.File) : List Cast :=
  (mockCasts file).filter fun cast => IsSuppressed file cast ∧
    ∀ outer ∈ mockCasts file, ¬IsSuppressed file outer →
      ¬(outer.span.start ≤ cast.span.start ∧ cast.span.stop ≤ outer.span.stop)

def textsOf (file : Source.File) (casts : List Cast) : Multiset (Option String) :=
  casts.map fun cast => file.textOf? cast.span

/-- What fixing makes of a text that is read without a mistake still has the casts that were
suppressed. -/
def KeepsSuppressed (name text : String) : Prop :=
  (Source.File.ofText name text).hasProblems = false →
    ∀ r, fixText {} name text = .ok r →
      textsOf (Source.File.ofText name text) (protectedCasts (Source.File.ofText name text)) ≤
        textsOf (Source.File.ofText name r.output) (mockCasts (Source.File.ofText name r.output))

/-! ### Scripts with remarks -/

section

variable {file : Source.File} {front : List Glyph}

theorem isSuppressed_iff_isSwitchedOff {cast : Cast}
    (h : file.directives = Source.Directives.ofText file.chars) :
    IsSuppressed file cast ↔ PreferMocked.isSwitchedOff file cast = true := by
  have hnames : PreferMocked.ruleNames ≠ [] := List.cons_ne_nil _ _
  rw [PreferMocked.isSwitchedOff, h, Source.Directives.isDisabled_ofText_iff hnames]
  rfl

theorem pieceCasts_pairwise (p : Place) (pieces : List Piece) :
    (∀ cast ∈ pieceCasts p pieces, p.offset ≤ cast.span.start ∧ cast.span.start < cast.span.stop) ∧
      (pieceCasts p pieces).Pairwise fun a b => a.span.stop ≤ b.span.start := by
  induction pieces generalizing p with
  | nil => simp [pieceCasts]
  | cons x pieces ih =>
    obtain ⟨hplaces, hpairs⟩ := ih (p.after x.glyphs)
    have hafter := p.after_offset x.glyphs
    have hbehind : ∀ cast ∈ pieceCasts (p.after x.glyphs) pieces,
        p.offset ≤ cast.span.start ∧ cast.span.start < cast.span.stop := fun cast hcast =>
      ⟨by have := hplaces cast hcast; omega, (hplaces cast hcast).2⟩
    cases x with
    | cast operand type remark =>
      have hspan := castAt_span p operand type remark
      have hfull : 0 < Text.byteLength (render (castGlyphs operand type remark)) := by
        have hbehind := byteLength_behind_operand_pos type remark
        rw [castGlyphs, render_append, Text.byteLength_append]
        omega
      have hstop : (castAt p operand type remark).span.stop ≤
          (p.after (Piece.cast operand type remark).glyphs).offset := by
        rw [hafter, hspan, Piece.glyphs, render_append, Text.byteLength_append, ← Nat.add_assoc]
        exact Nat.le_add_right _ _
      refine ⟨List.forall_mem_cons.mpr ⟨?_, hbehind⟩, List.pairwise_cons.mpr ⟨?_, hpairs⟩⟩
      · rw [hspan]
        exact ⟨Nat.le_refl _, Nat.lt_add_of_pos_right hfull⟩
      · intro cast hcast
        exact hstop.trans (hplaces cast hcast).1
    | _ => exact ⟨hbehind, hpairs⟩

theorem pieceCasts_not_inside {p : Place} {pieces : List Piece} :
    ∀ outer ∈ pieceCasts p pieces, ∀ cast ∈ pieceCasts p pieces,
      outer.span.start ≤ cast.span.start → cast.span.stop ≤ outer.span.stop →
        outer.span.start = cast.span.start := by
  obtain ⟨hplaces, hpairs⟩ := pieceCasts_pairwise p pieces
  refine List.Pairwise.forall_of_forall_of_flip (fun _ _ _ _ => rfl) ?_ ?_
  · refine hpairs.imp_of_mem fun {a b} _ hb hab _ hstop => ?_
    have hfull := (hplaces b hb).2
    omega
  · refine hpairs.imp_of_mem fun {a b} ha _ hab hstart _ => ?_
    have hfull := (hplaces a ha).2
    omega

theorem textOf?_castAt {operand : Operand} {type : MockType} {remark : Option Remark}
    {back : List Glyph}
    (hchars : file.chars = render (front ++ (castGlyphs operand type remark ++ back))) :
    file.textOf? (castAt (Place.origin.after front) operand type remark).span =
      some (String.ofList (render (castGlyphs operand type remark))) := by
  have hslice := (holds_of_render hchars).slice
  rw [(Place.origin.after front).after_offset] at hslice
  rw [castAt_span, Source.File.textOf?, if_pos (PreferMocked.contains_of_sliceBytes hslice), hslice,
    Option.map_some]

theorem map_textOf?_pieceCasts (front : List Glyph) (pieces : List Piece)
    (hchars : file.chars = render (front ++ pieceGlyphs pieces)) :
    (pieceCasts (Place.origin.after front) pieces).map (fun cast => file.textOf? cast.span) =
      (castTexts pieces).map fun cs => some (String.ofList cs) := by
  induction pieces generalizing front with
  | nil => rfl
  | cons x pieces ih =>
    have hrest := ih (front ++ x.glyphs) (by rw [hchars, pieceGlyphs_cons, List.append_assoc])
    rw [Place.after_append] at hrest
    cases x with
    | cast operand type remark =>
      rw [pieceGlyphs_cast] at hchars
      rw [pieceCasts, castTexts, List.map_cons, List.map_cons, textOf?_castAt hchars, hrest]
    | _ => exact hrest

theorem map_textOf?_filter_pieceCasts (front : List Glyph) (pieces : List Piece)
    (hdirectives : file.directives = Source.Directives.ofText file.chars)
    (hchars : file.chars = render (front ++ pieceGlyphs pieces)) :
    ((pieceCasts (Place.origin.after front) pieces).filter (PreferMocked.isSwitchedOff file)).map
        (fun cast => file.textOf? cast.span) =
      (castTexts (passFrom (offAfter false front) pieces)).map
        fun cs => some (String.ofList cs) := by
  induction pieces generalizing front with
  | nil => rfl
  | cons x pieces ih =>
    have hrest := ih (front ++ x.glyphs) (by rw [hchars, pieceGlyphs_cons, List.append_assoc])
    rw [Place.after_append, offAfter_append] at hrest
    cases x with
    | cast operand type remark =>
      have hswitched : PreferMocked.isSwitchedOff file
          (castAt (Place.origin.after front) operand type remark) = _ :=
        isSwitchedOff_castAt hdirectives hchars
      rw [pieceGlyphs_cast] at hchars
      rw [pieceCasts, passFrom, List.filter_cons, hswitched]
      split
      · rw [castTexts, List.map_cons, List.map_cons, textOf?_castAt hchars, hrest]
      · exact hrest
    | _ =>
      simp only [passFrom, Piece.rewritten, ite_self]
      exact hrest

end

section

variable {name : String} (hts : (Source.Language.ofFilename name).isTypescript = true)
  (pieces : List Piece)

include hts

theorem mockCasts_pieces :
    mockCasts (Source.File.ofText name (pieceText pieces)) = pieceCasts Place.origin pieces := by
  rw [mockCasts, casts_pieces hts, List.filter_eq_self]
  generalize Place.origin = p
  induction pieces generalizing p with
  | nil => simp [pieceCasts]
  | cons x pieces ih =>
    cases x with
    | cast operand type remark =>
      exact List.forall_mem_cons.mpr ⟨by cases type <;> rfl, ih _⟩
    | _ => exact ih _

theorem textsOf_protectedCasts_pieces :
    textsOf (Source.File.ofText name (pieceText pieces))
        (protectedCasts (Source.File.ofText name (pieceText pieces))) =
      (castTexts (passFrom false pieces)).map fun cs => some (String.ofList cs) := by
  have hchars := chars_pieces name pieces
  have hprotected : protectedCasts (Source.File.ofText name (pieceText pieces)) =
      (pieceCasts Place.origin pieces).filter
        (PreferMocked.isSwitchedOff (Source.File.ofText name (pieceText pieces))) := by
    rw [protectedCasts, mockCasts_pieces hts]
    refine List.filter_congr fun cast hcast => ?_
    rw [Bool.eq_iff_iff, decide_eq_true_eq, isSuppressed_iff_isSwitchedOff rfl,
      and_iff_left_iff_imp]
    intro hoff outer houter hon hinside
    have hstart := pieceCasts_not_inside outer houter cast hcast hinside.1 hinside.2
    rw [isSuppressed_iff_isSwitchedOff rfl, PreferMocked.isSwitchedOff, hstart] at hon
    exact hon hoff
  rw [textsOf, hprotected]
  exact congrArg _ (map_textOf?_filter_pieceCasts [] pieces rfl hchars)

theorem textsOf_mockCasts_pieces :
    textsOf (Source.File.ofText name (pieceText pieces))
        (mockCasts (Source.File.ofText name (pieceText pieces))) =
      (castTexts pieces).map fun cs => some (String.ofList cs) := by
  rw [textsOf, mockCasts_pieces hts]
  exact congrArg _ (map_textOf?_pieceCasts [] pieces (chars_pieces name pieces))

theorem fixText_pieces :
    ∃ r last, fixText {} name (pieceText pieces) = .ok r ∧ r.output = pieceText last ∧
      if allOff false (passFrom false pieces) then last = passFrom false pieces
      else (castTexts last).length < (castTexts (passFrom false pieces)).length := by
  obtain ⟨r, k, hr, houtput, hend⟩ := fixUpTo_pieces hts pieces 10
  refine ⟨r, _, hr, houtput, ?_⟩
  match k with
  | 0 =>
    have hoff : allOff false pieces = true := hend.resolve_left (by decide)
    have hself : passFrom false pieces = pieces := passFrom_eq_self hoff
    rw [hself, if_pos hoff]
    rfl
  | k + 1 =>
    rw [Function.iterate_succ_apply]
    split
    next hoff =>
      have hself : passFrom false (passFrom false pieces) = passFrom false pieces :=
        passFrom_eq_self hoff
      exact Function.iterate_fixed hself k
    next hon =>
      match k with
      | 0 => exact absurd (hend.resolve_left (by decide)) hon
      | k + 1 =>
        have hless := (castTexts_passFrom_length false (passFrom false pieces)).2
          (by simpa using hon)
        exact (castTexts_iterate_length_le k _).trans_lt hless

end

end Lint

structure RemarkedScript where
  name : String
  typescript : (Source.Language.ofFilename name).isTypescript = true
  pieces : List Script.Piece

namespace RemarkedScript

open Script

def text (script : RemarkedScript) : String := pieceText script.pieces

/-- A cast that is not switched off holds a remark to which alone the casts on the next line owe
that they are. -/
def dropsDirective (script : RemarkedScript) : Bool := dropsFrom false script.pieces

end RemarkedScript

namespace Lint

open Script

/-- Fixing keeps the suppressed casts of a script with remarks exactly if no cast that is not
suppressed holds the directive for others. -/
theorem keepsSuppressed_iff (script : RemarkedScript) :
    (Source.File.ofText script.name script.text).hasProblems = false ∧
    (∃ r, fixText {} script.name script.text = .ok r) ∧
    (KeepsSuppressed script.name script.text ↔ script.dropsDirective = false) := by
  have hclean := hasProblems_pieces script.typescript script.pieces
  obtain ⟨r, last, hr, houtput, hlast⟩ := fixText_pieces script.typescript script.pieces
  have hbefore := textsOf_protectedCasts_pieces script.typescript script.pieces
  have hafter := textsOf_mockCasts_pieces script.typescript last
  have hdrops := allOff_passFrom false false id script.pieces
  refine ⟨hclean, ⟨r, hr⟩, ?_⟩
  constructor
  · intro h
    have hle := h hclean r hr
    rw [houtput, RemarkedScript.text, hbefore, hafter] at hle
    have hcard := Multiset.card_le_card hle
    simp only [Multiset.coe_card, List.length_map] at hcard
    split at hlast
    next hoff => exact (hdrops.mp hoff).2
    next hon => exact absurd hcard (Nat.not_le.mpr hlast)
  · intro hkeeps _ r' hr'
    obtain rfl := Except.ok.inj (hr.symm.trans hr')
    rw [if_pos (hdrops.mpr ⟨by simp, hkeeps⟩)] at hlast
    rw [houtput, RemarkedScript.text, hbefore, hafter, hlast]

/-- A script in which fixing drops a remark and moves lines, but drops no directive. -/
def movingScript : RemarkedScript :=
  let here : Remark := ⟨" mocklint-disable-line J001".toList, by decide⟩
  let next : Remark := ⟨" mocklint-disable-next-line".toList, by decide⟩
  { name := "a.ts"
    typescript := Source.Language.isTypescript_ts
    pieces := [.cast (.path .a) .mock (some ⟨" why".toList, by decide⟩), .feed (some next),
      .cast (.path .b) .mock (some next), .space, .cast (.path .c) .mock none, .space,
      .feed (some here)] }

example : movingScript.text = "a as // why\njest.Mock;// mocklint-disable-next-line\n" ++
    "b as // mocklint-disable-next-line\njest.Mock; " ++
    "c as jest.Mock; // mocklint-disable-line J001\n" := by
  decide +kernel

theorem movingScript_keepsSuppressed : KeepsSuppressed movingScript.name movingScript.text := by
  rw [(keepsSuppressed_iff movingScript).2.2]
  decide +kernel

/-- The fix of a cast takes a comment along that was for the next line. -/
theorem comment_not_kept :
    ¬KeepsSuppressed "a.ts" "a as // mocklint-disable-next-line\njest.Mock; b as jest.Mock;" := by
  have hclean : (Source.File.ofText "a.ts"
      "a as // mocklint-disable-next-line\njest.Mock; b as jest.Mock;").hasProblems = false := by
    decide +kernel
  have hprotected : (protectedCasts (Source.File.ofText "a.ts"
      "a as // mocklint-disable-next-line\njest.Mock; b as jest.Mock;")).length = 1 := by
    decide +kernel
  have hoff : (fixText {} "a.ts"
      "a as // mocklint-disable-next-line\njest.Mock; b as jest.Mock;").toOption.map
        FixResult.output = some "jest.mocked(a); jest.mocked(b);" := by
    decide +kernel
  have hnone :
      (mockCasts (Source.File.ofText "a.ts" "jest.mocked(a); jest.mocked(b);")).length = 0 := by
    decide +kernel
  intro h
  cases hr : fixText {} "a.ts" "a as // mocklint-disable-next-line\njest.Mock; b as jest.Mock;" with
  | error e => simp [hr, Except.toOption] at hoff
  | ok r =>
    have hle := Multiset.card_le_card (h hclean r hr)
    obtain houtput : r.output = "jest.mocked(a); jest.mocked(b);" := by
      simpa [hr, Except.toOption] using hoff
    simp [textsOf, houtput, hprotected, hnone] at hle

end Lint
end CastLint
