import CastLint.Proofs.LineNumbers
import CastLint.Proofs.RemarkedScripts
import CastLint.Proofs.Suppression

/-! Which lines of a text its remarks switch off. A line is switched off by the remark at its own
end or by the one at the end of the line in front, so whether it is can be told while the text is
read from left to right. -/

namespace CastLint

namespace Source

theorem comment?_append {cs : List Char} (h : '/' ∉ cs) (ds : List Char) :
    comment? (cs ++ '/' :: '/' :: ds) = some ds := by
  induction cs with
  | nil => rfl
  | cons c cs ih =>
    simp only [List.mem_cons, not_or] at h
    rw [List.cons_append, comment?]
    · exact ih h.2
    · rintro rest rfl -
      exact h.1 rfl

theorem directive?_add (n k : Nat) (text : List Char) :
    directive? (n + k) text = (directive? n text).map fun d => { d with line := d.line + k } := by
  unfold directive?
  cases comment? text with
  | none => rfl
  | some body =>
    simp only [Option.bind_eq_bind, Option.bind_some]
    cases behind? nextLineKeyword.toList (Text.trim body) with
    | some tail => cases ruleList? tail <;> simp [Nat.add_right_comm]
    | none =>
      cases behind? thisLineKeyword.toList (Text.trim body) with
      | none => rfl
      | some tail => cases hrules : ruleList? tail <;> simp [hrules]

theorem line_of_directive? {n : Nat} {text : List Char} {d : Directive}
    (h : directive? n text = some d) : d.line = n ∨ d.line = n + 1 := by
  unfold directive? at h
  cases hbody : comment? text with
  | none => simp [hbody] at h
  | some body =>
    simp only [hbody, Option.bind_eq_bind, Option.bind_some] at h
    split at h
    · obtain ⟨rules, -, hd⟩ := Option.bind_eq_some_iff.mp h
      obtain rfl := Option.some.inj hd
      exact Or.inr rfl
    · obtain ⟨tail, -, hd⟩ := Option.bind_eq_some_iff.mp h
      obtain ⟨rules, -, hd⟩ := Option.bind_eq_some_iff.mp hd
      obtain rfl := Option.some.inj hd
      exact Or.inl rfl

end Source

namespace Script

open Syntax Source
open Lint.PreferMocked (ruleNames)

namespace Remark

def directive? (r : Remark) (line : Nat) : Option Directive :=
  Source.directive? line ('/' :: '/' :: r.text)

/-- The remark switches casts off that stand so many lines ahead. -/
def switchesOff (r : Remark) (ahead : Nat) : Bool :=
  (r.directive? 0).any fun d => d.line = ahead && d.disablesAny ruleNames

theorem any_directive? (r : Remark) (n line : Nat) :
    ((r.directive? n).toList.any fun d => d.line = line && d.disablesAny ruleNames) =
      (line = n && r.switchesOff 0 || line = n + 1 && r.switchesOff 1) := by
  have hmove : r.directive? n = (r.directive? 0).map fun d => { d with line := d.line + n } := by
    have hadd := directive?_add 0 n ('/' :: '/' :: r.text)
    rwa [Nat.zero_add] at hadd
  rw [hmove, switchesOff, switchesOff]
  cases hd : r.directive? 0 with
  | none => simp
  | some d =>
    obtain ⟨ahead, rules⟩ := d
    have hrules : ∀ k, Directive.disablesAny ⟨k, rules⟩ ruleNames =
        Directive.disablesAny ⟨0, rules⟩ ruleNames := fun _ => rfl
    obtain rfl | rfl : ahead = 0 ∨ ahead = 1 := line_of_directive? hd
    · simp [hrules n, eq_comm]
    · simp [hrules (n + 1), hrules 1, eq_comm, Nat.add_comm]

end Remark

/-! ### Lines -/

/-- The number of lines that glyphs end. -/
def feeds (gs : List Glyph) : Nat := gs.countP (!·.isInline)

@[simp] theorem feeds_nil : feeds [] = 0 := rfl

@[simp] theorem feeds_line (gs : List Glyph) : feeds (.line :: gs) = feeds gs + 1 :=
  List.countP_cons_of_pos rfl

@[simp] theorem feeds_remark (r : Remark) (gs : List Glyph) :
    feeds (.remark r :: gs) = feeds gs + 1 :=
  List.countP_cons_of_pos rfl

theorem feeds_cons_of_isInline {x : Glyph} (h : x.isInline = true) (gs : List Glyph) :
    feeds (x :: gs) = feeds gs := by
  simp [feeds, h]

theorem Glyph.notMem_of_isInline {x : Glyph} (h : x.isInline = true) :
    '\n' ∉ x.chars ∧ '/' ∉ x.chars := by
  cases x with
  | word w =>
    refine ⟨fun hc => ?_, fun hc => ?_⟩
    · exact absurd (w.isNamePart_of_mem hc) (by decide)
    · exact absurd (w.isNamePart_of_mem hc) (by decide)
  | sign s => cases s <;> decide
  | space => decide
  | line => simp [Glyph.isInline] at h
  | remark r => simp [Glyph.isInline] at h

theorem Remark.notMem (r : Remark) {c : Char} (hc : isLineBreak c = true) : c ∉ r.text := by
  intro hmem
  have hbreak := List.all_eq_true.mp r.unbroken c hmem
  simp [hc] at hbreak

theorem count_render (gs : List Glyph) : (render gs).count '\n' = feeds gs := by
  induction gs with
  | nil => rfl
  | cons x gs ih =>
    rw [render_cons, List.count_append, ih]
    cases x with
    | line =>
      rw [feeds_line]
      exact Nat.add_comm _ _
    | remark r =>
      have hbody : r.text.count '\n' = 0 := List.count_eq_zero.mpr (r.notMem (by decide))
      simp [Glyph.chars, Remark.chars, hbody, Nat.add_comm]
    | _ =>
      rw [feeds_cons_of_isInline rfl, List.count_eq_zero.mpr (Glyph.notMem_of_isInline rfl).1,
        Nat.zero_add]

/-- The directives in the remarks of a text, the first line of which has the number `n`. -/
def remarkDirectives (n : Nat) : List Glyph → List Directive
  | [] => []
  | .line :: gs => remarkDirectives (n + 1) gs
  | .remark r :: gs => (r.directive? n).toList ++ remarkDirectives (n + 1) gs
  | _ :: gs => remarkDirectives n gs

theorem dropReturn_eq_self {line : List Char} (h : line.head? ≠ some '\r') :
    Text.dropReturn line = line := by
  unfold Text.dropReturn
  split
  · simp at h
  · rfl

theorem directivesFrom_render (line : List Char) (hline : '/' ∉ line) (n : Nat) (gs : List Glyph) :
    directivesFrom n (Text.linesFrom line (render gs)) = remarkDirectives n gs := by
  induction gs generalizing line n with
  | nil =>
    refine directivesFrom_eq_nil n fun text htext hslash => ?_
    obtain h | h := mem_of_mem_linesFrom htext hslash
    · exact hline h
    · simp at h
  | cons x gs ih =>
    have hinline : x.isInline = true →
        directivesFrom n (Text.linesFrom line (x.chars ++ render gs)) = remarkDirectives n gs := by
      intro hx
      obtain ⟨hfeed, hslash⟩ := Glyph.notMem_of_isInline hx
      rw [Text.linesFrom_append hfeed]
      exact ih _ (by simp [hslash, hline]) n
    rw [render_cons]
    cases x with
    | line =>
      have hnone : comment? (Text.dropReturn line).reverse = none :=
        comment?_eq_none fun h => hline (dropReturn_subset line (List.mem_reverse.mp h))
      have hrest := ih [] (by simp) (n + 1)
      simp [Glyph.chars, Text.linesFrom, directivesFrom, directive?, hnone, hrest, remarkDirectives]
    | remark r =>
      have hrest := ih [] (by simp) (n + 1)
      have hbody : '\n' ∉ '/' :: '/' :: r.text := by
        simpa using r.notMem (c := '\n') (by decide)
      have hchars : r.chars ++ render gs = ('/' :: '/' :: r.text) ++ '\n' :: render gs := by
        simp [Remark.chars]
      rw [Glyph.chars, hchars, Text.linesFrom_append hbody, Text.linesFrom, if_pos rfl,
        directivesFrom, hrest, remarkDirectives]
      have hkeep : Text.dropReturn (('/' :: '/' :: r.text).reverse ++ line) =
          ('/' :: '/' :: r.text).reverse ++ line := by
        apply dropReturn_eq_self
        rw [List.head?_append_of_ne_nil _ (by simp), List.head?_reverse]
        intro hlast
        have hreturn : '\r' ∈ r.text := by simpa using List.mem_of_getLast? hlast
        exact r.notMem (by decide) hreturn
      have hcomment :
          directive? n (Text.dropReturn (('/' :: '/' :: r.text).reverse ++ line)).reverse =
            r.directive? n := by
        have hslash : '/' ∉ line.reverse := fun h => hline (List.mem_reverse.mp h)
        rw [hkeep, List.reverse_append, List.reverse_reverse, directive?, comment?_append hslash]
        rfl
      rw [hcomment]
    | _ => exact hinline rfl

/-! ### Lines that are switched off -/

/-- Casts behind a glyph are switched off by the line in front of theirs. -/
def offPast (off : Bool) : Glyph → Bool
  | .line => false
  | .remark r => r.switchesOff 1
  | _ => off

/-- Casts behind glyphs are switched off by the line in front of theirs. -/
def offAfter (off : Bool) (gs : List Glyph) : Bool := gs.foldl offPast off

/-- Casts on the first line are switched off by its own end. -/
def offBy : List Glyph → Bool
  | [] => false
  | .line :: _ => false
  | .remark r :: _ => r.switchesOff 0
  | _ :: gs => offBy gs

theorem any_remarkDirectives_of_lt {n line : Nat} (h : line < n) (gs : List Glyph) :
    (remarkDirectives n gs).any (fun d => d.line = line && d.disablesAny ruleNames) = false := by
  induction gs generalizing n with
  | nil => rfl
  | cons x gs ih =>
    have hnext := ih (n := n + 1) (by omega)
    cases x with
    | line => exact hnext
    | remark r =>
      have hne : line ≠ n ∧ line ≠ n + 1 := by omega
      rw [remarkDirectives, List.any_append, r.any_directive?, hnext]
      simp [hne]
    | _ => exact ih h

theorem any_remarkDirectives (n : Nat) (gs : List Glyph) :
    (remarkDirectives n gs).any (fun d => d.line = n && d.disablesAny ruleNames) = offBy gs := by
  induction gs with
  | nil => rfl
  | cons x gs ih =>
    have hnext := any_remarkDirectives_of_lt (Nat.lt_succ_self n) gs
    cases x with
    | line => exact hnext
    | remark r =>
      rw [remarkDirectives, List.any_append, r.any_directive?, hnext]
      simp [offBy]
    | _ => exact ih

/-- A line behind `front` is switched off by its own end or by the line in front of it. -/
theorem any_remarkDirectives_append (n : Nat) (off : Bool) (front back : List Glyph) :
    ((remarkDirectives n (front ++ back)).any
        (fun d => d.line = n + feeds front && d.disablesAny ruleNames) ||
      (off && feeds front = 0)) = (offAfter off front || offBy back) := by
  induction front generalizing n off with
  | nil => simp [any_remarkDirectives, offAfter, Bool.or_comm]
  | cons x front ih =>
    cases x with
    | line =>
      have hnext := ih (n + 1) false
      have hfeeds : n + 1 + feeds front = n + feeds (.line :: front) := by
        rw [feeds_line]
        omega
      have hafter : offAfter off (.line :: front) = offAfter false front := rfl
      rw [hfeeds] at hnext
      rw [hafter, ← hnext]
      simp [remarkDirectives]
    | remark r =>
      have hnext := ih (n + 1) (r.switchesOff 1)
      have hfeeds : n + 1 + feeds front = n + feeds (.remark r :: front) := by
        rw [feeds_remark]
        omega
      rw [hfeeds] at hnext
      have hafter : offAfter off (.remark r :: front) = offAfter (r.switchesOff 1) front := rfl
      rw [List.cons_append, remarkDirectives, List.any_append, r.any_directive?, hafter, ← hnext]
      simp [Bool.or_comm, Bool.and_comm]
    | _ => exact ih n off

/-- What switches off the line that a text goes on with. -/
theorem isDisabled_render (front back : List Glyph) :
    (Directives.ofText (render (front ++ back))).isDisabled (1 + feeds front) ruleNames =
      (offAfter false front || offBy back) := by
  rw [Directives.isDisabled_ofText, Text.lines, directivesFrom_render [] (by simp),
    ← any_remarkDirectives_append 1 false front back]
  simp

/-! ### Pieces -/

section

variable {gs : List Glyph}

theorem offAfter_append (off : Bool) (gs hs : List Glyph) :
    offAfter off (gs ++ hs) = offAfter (offAfter off gs) hs := List.foldl_append

theorem offAfter_of_isInline (off : Bool) (h : gs.all Glyph.isInline = true) :
    offAfter off gs = off := by
  induction gs with
  | nil => rfl
  | cons x gs ih =>
    simp only [List.all_cons, Bool.and_eq_true] at h
    cases x with
    | line => simp [Glyph.isInline] at h
    | remark r => simp [Glyph.isInline] at h
    | _ => exact ih h.2

theorem offBy_append (h : gs.all Glyph.isInline = true) (hs : List Glyph) :
    offBy (gs ++ hs) = offBy hs := by
  induction gs with
  | nil => rfl
  | cons x gs ih =>
    simp only [List.all_cons, Bool.and_eq_true] at h
    cases x with
    | line => simp [Glyph.isInline] at h
    | remark r => simp [Glyph.isInline] at h
    | _ => exact ih h.2

@[simp] theorem Operand.mocked_isInline (operand : Operand) :
    operand.mocked.glyphs.all Glyph.isInline = true := by
  cases operand <;> simp [Operand.mocked, Head.glyphs, helperGlyphs, Glyph.isInline]

end

section

variable (off : Bool) (operand : Operand) (type : MockType) (r : Remark) (pieces : List Piece)

@[simp] theorem offAfter_cast_none :
    offAfter off (Piece.cast operand type none).glyphs = off :=
  offAfter_of_isInline off (by
    simp [Piece.glyphs, castGlyphs, asGlyphs, gapGlyphs, MockType.nameGlyphs, Glyph.isInline])

@[simp] theorem offAfter_cast_some :
    offAfter off (Piece.cast operand type (some r)).glyphs = r.switchesOff 1 := by
  simp only [Piece.glyphs, castGlyphs, List.append_assoc, offAfter_append,
    offAfter_of_isInline off operand.glyphs_isInline]
  rfl

@[simp] theorem offAfter_mocked : offAfter off (Piece.mocked operand).glyphs = off :=
  offAfter_of_isInline off (by simp [Piece.glyphs, Glyph.isInline])

@[simp] theorem offAfter_space : offAfter off Piece.space.glyphs = off := rfl

@[simp] theorem offBy_cast_none :
    offBy (pieceGlyphs (.cast operand type none :: pieces)) = offBy (pieceGlyphs pieces) :=
  offBy_append (by
    simp [Piece.glyphs, castGlyphs, asGlyphs, gapGlyphs, MockType.nameGlyphs, Glyph.isInline]) _

@[simp] theorem offBy_cast_some :
    offBy (pieceGlyphs (.cast operand type (some r) :: pieces)) = r.switchesOff 0 := by
  simp only [pieceGlyphs_cons, Piece.glyphs, castGlyphs, List.append_assoc,
    offBy_append operand.glyphs_isInline]
  rfl

@[simp] theorem offBy_mocked :
    offBy (pieceGlyphs (.mocked operand :: pieces)) = offBy (pieceGlyphs pieces) :=
  offBy_append (by simp [Piece.glyphs, Glyph.isInline]) _

@[simp] theorem offBy_space :
    offBy (pieceGlyphs (.space :: pieces)) = offBy (pieceGlyphs pieces) := rfl

end

end Script
end CastLint
