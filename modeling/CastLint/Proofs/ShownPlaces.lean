import CastLint.Proofs.ByteOrderMark

/-! Where mistakes show and where they are. The place at which a mistake shows counts lines as a
screen does, which starts a new one at a carriage return too, and columns in cells. The location of
an offset counts line feeds and characters. Directives, excerpts and carets go by the latter. The
two agree exactly where no carriage return stands alone in front of the mistake and the characters in
front of it on its line take as many cells as there are of them. -/

namespace CastLint

namespace Text

/-- The characters of the last line of a text in reverse, behind `line`, the start of that line in
reverse. -/
def lastLineFrom (line cs : List Char) : List Char :=
  cs.foldl (fun line c => if c = '\n' then [] else c :: line) line

def lastLine (cs : List Char) : List Char := (lastLineFrom [] cs).reverse

theorem lastLineFrom_cons (line : List Char) (c : Char) (cs : List Char) :
    lastLineFrom line (c :: cs) = lastLineFrom (if c = '\n' then [] else c :: line) cs := rfl

theorem column_advanceAll {l : Location} {line : List Char} (h : l.column = line.length + 1)
    (cs : List Char) : (l.advanceAll cs).column = (lastLineFrom line cs).length + 1 := by
  induction cs generalizing l line with
  | nil => exact h
  | cons c cs ih =>
    rw [Location.advanceAll_cons, lastLineFrom_cons]
    apply ih
    unfold Location.advance
    split
    · rfl
    · rw [h, List.length_cons]

theorem locate_column (front back : List Char) :
    (locate (front ++ back) (byteLength front)).column = (lastLine front).length + 1 := by
  rw [locate_append, lastLine, List.length_reverse]
  exact column_advanceAll rfl front

theorem locate_line (front back : List Char) :
    (locate (front ++ back) (byteLength front)).line = 1 + front.count '\n' := by
  rw [locate_append, Location.advanceAll_line, Location.origin]

end Text

namespace Syntax

open Text

/-- The carriage returns in `front` that stand alone, with no line feed behind them. The text goes on
with `back`. -/
def loneReturns : (front back : List Char) → ℕ
  | [], _ => 0
  | c :: front, back =>
    (if c = '\r' ∧ (front ++ back).head? ≠ some '\n' then 1 else 0) + loneReturns front back

theorem lineFrom_zero (line : ℕ) (front cs : List Char) :
    lineFrom line front cs 0 = (line, front) := by
  simp [lineFrom]

theorem lineFrom_cons (line : ℕ) (shown : List Char) (c : Char) (cs : List Char) (n : ℕ) :
    lineFrom line shown (c :: cs) (c.utf8Size + n) =
      if c = '\n' ∨ c = '\r' ∧ cs.head? ≠ some '\n' then lineFrom (line + 1) [] cs n
      else lineFrom line (c :: shown) cs n := by
  obtain ⟨m, hm⟩ : ∃ m, c.utf8Size + n = m + 1 :=
    ⟨c.utf8Size + n - 1, by have := c.utf8Size_pos; omega⟩
  have hrest : m + 1 - c.utf8Size = n := by omega
  rw [hm, lineFrom, hrest]
  by_cases hbreak : c = '\n' ∨ c = '\r' ∧ cs.head? ≠ some '\n'
  · have hsize : c.utf8Size = 1 := by
      obtain rfl | ⟨rfl, -⟩ := hbreak <;> decide
    have hn : m = n := by omega
    simp [hbreak, hn]
  · simp [hbreak]

theorem lineFrom_line (line : ℕ) (shown front back : List Char) :
    (lineFrom line shown (front ++ back) (byteLength front)).1 =
      line + front.count '\n' + loneReturns front back := by
  induction front generalizing line shown with
  | nil => simp [lineFrom_zero, loneReturns]
  | cons c front ih =>
    rw [List.cons_append, byteLength_cons, lineFrom_cons, loneReturns, List.count_cons]
    simp only [beq_iff_eq]
    by_cases hfeed : c = '\n'
    · have hreturn : ¬(c = '\r' ∧ (front ++ back).head? ≠ some '\n') := by
        rintro ⟨rfl, -⟩
        exact absurd hfeed (by decide)
      rw [if_pos (Or.inl hfeed), if_neg hreturn, if_pos hfeed, ih]
      omega
    · by_cases halone : c = '\r' ∧ (front ++ back).head? ≠ some '\n'
      · rw [if_pos (Or.inr halone), if_pos halone, if_neg hfeed, ih]
        omega
      · rw [if_neg (not_or.mpr ⟨hfeed, halone⟩), if_neg halone, if_neg hfeed, ih]
        omega

theorem lineFrom_shown {front back : List Char} (h : loneReturns front back = 0) (line : ℕ)
    (shown : List Char) :
    (lineFrom line shown (front ++ back) (byteLength front)).2 = lastLineFrom shown front := by
  induction front generalizing line shown with
  | nil => simp [lineFrom_zero, lastLineFrom]
  | cons c front ih =>
    rw [loneReturns, Nat.add_eq_zero_iff] at h
    obtain ⟨halone, hrest⟩ := h
    have hnone : ¬(c = '\r' ∧ (front ++ back).head? ≠ some '\n') := by
      intro hreturn
      rw [if_pos hreturn] at halone
      exact absurd halone Nat.one_ne_zero
    rw [List.cons_append, byteLength_cons, lineFrom_cons, lastLineFrom_cons]
    simp only [hnone, or_false]
    split
    · exact ih hrest _ _
    · exact ih hrest _ _

section

variable (front back : List Char)

theorem shownAt_line :
    (shownAt (front ++ back) (byteLength front)).line =
      (locate (front ++ back) (byteLength front)).line + loneReturns front back := by
  rw [locate_line]
  exact lineFrom_line 1 [] front back

theorem shownAt_column (h : loneReturns front back = 0) :
    (shownAt (front ++ back) (byteLength front)).column = displayWidth (lastLine front) + 1 := by
  unfold shownAt lastLine
  rw [← lineFrom_shown h 1 []]

/-- A mistake shows where it is exactly if no carriage return in front of it stands alone and the
characters in front of it on its line take as many cells as there are of them. -/
theorem shownAt_eq_locate_iff :
    shownAt (front ++ back) (byteLength front) = locate (front ++ back) (byteLength front) ↔
      loneReturns front back = 0 ∧ displayWidth (lastLine front) = (lastLine front).length := by
  have hline := shownAt_line front back
  have hplace : ∀ l m : Location, l = m ↔ l.line = m.line ∧ l.column = m.column := by
    rintro ⟨line, column⟩ ⟨line', column'⟩
    simp
  rw [hplace, hline, Nat.add_eq_left]
  refine and_congr_right fun halone => ?_
  rw [shownAt_column front back halone, locate_column, Nat.add_right_cancel_iff]

end

end Syntax

namespace Lint

open Text Syntax

namespace Engine

def issuesOf (name text : String) : List Issue :=
  (read (Source.Language.ofFilename name).dialect text.toList).issues

/-- Every mistake in a text is reported at the location of the offset at which it starts. -/
def ProblemsLocated (name text : String) : Prop :=
  List.Forall₂ (fun issue d =>
      d.range.start = (Source.File.ofText name text).locationOf issue.span.start)
    (issuesOf name text) (parseFindings (Source.File.ofText name text))

instance problemsLocatedDecidable (name text : String) : Decidable (ProblemsLocated name text) :=
  inferInstanceAs (Decidable (List.Forall₂ _ _ _))

theorem parseFindings_eq {text : String} (name : String) (hmark : text.toList.head? ≠ some '\ufeff') :
    parseFindings (Source.File.ofText name text) =
      (issuesOf name text).map fun issue =>
        .point parseRuleId .error issue.fault.message name
          (shownAt text.toList issue.span.start) := by
  have hbody := withoutMark_of_head? hmark
  simp only [parseFindings, Source.File.ofText, Module.ofText, hbody, List.map_map, issuesOf]
  rfl

/-- A mistake is reported as many lines too far down as carriage returns stand alone in front of it,
and it is reported at its location exactly if there are none and the characters in front of it on its
line take as many cells as there are of them. -/
theorem parseFindings_located_iff (name text : String) (hmark : text.toList.head? ≠ some '\ufeff') :
    List.Forall₂ (fun issue d => d.ruleId = parseRuleId ∧ ∀ front back,
        text.toList = front ++ back → byteLength front = issue.span.start →
        let place := (Source.File.ofText name text).locationOf issue.span.start
        d.range.start.line = place.line + loneReturns front back ∧
          (d.range.start = place ↔ loneReturns front back = 0 ∧
            displayWidth (lastLine front) = (lastLine front).length))
      (issuesOf name text) (parseFindings (Source.File.ofText name text)) := by
  rw [parseFindings_eq name hmark, List.forall₂_map_right_iff, List.forall₂_same]
  refine fun issue _ => ⟨rfl, fun front back htext hstart => ?_⟩
  have hplace : (Source.File.ofText name text).locationOf issue.span.start =
      locate (front ++ back) (byteLength front) := by
    rw [hstart, ← htext]
    rfl
  have hshown : shownAt text.toList issue.span.start =
      shownAt (front ++ back) (byteLength front) := by
    rw [hstart, ← htext]
  simp only [hplace, hshown, Diagnostic.point]
  exact ⟨shownAt_line front back, shownAt_eq_locate_iff front back⟩

/-- Two mistakes of one kind, the second one behind a tab. -/
def twoDeletes : String := "delete é;\r\n\tdelete x;"

theorem twoDeletes_located :
    twoDeletes.toList.head? ≠ some '\ufeff' ∧
    ∃ d e, parseFindings (Source.File.ofText "a.js" twoDeletes) = [d, e] ∧
      d.range.start = (Source.File.ofText "a.js" twoDeletes).locationOf 7 ∧
      e.range.start ≠ (Source.File.ofText "a.js" twoDeletes).locationOf 20 := by
  have hmark : twoDeletes.toList.head? ≠ some '\ufeff' := by decide +kernel
  have hissues : issuesOf "a.js" twoDeletes = [⟨⟨7, 9⟩, .deleteName⟩, ⟨⟨20, 21⟩, .deleteName⟩] := by
    decide +kernel
  have hlocated := parseFindings_located_iff "a.js" twoDeletes hmark
  rw [hissues] at hlocated
  obtain ⟨d, rest, ⟨-, hd⟩, hrest, hfindings⟩ := List.forall₂_cons_left_iff.mp hlocated
  obtain ⟨e, rest, ⟨-, he⟩, hnil, rfl⟩ := List.forall₂_cons_left_iff.mp hrest
  obtain rfl := List.forall₂_nil_left_iff.mp hnil
  refine ⟨hmark, d, e, hfindings, ?_, ?_⟩
  · refine (hd "delete ".toList "é;\r\n\tdelete x;".toList ?_ ?_).2.mpr ?_ <;> decide +kernel
  · refine mt (he "delete é;\r\n\tdelete ".toList "x;".toList ?_ ?_).2.mp ?_ <;> decide +kernel

/-- A mistake behind a tab is reported three columns too far to the right, and one behind a carriage
return on the wrong line, where no directive switches it off. -/
theorem tab_and_return_not_located :
    ¬ProblemsLocated "a.ts" "\t)" ∧
    ¬ProblemsLocated "a.ts" ";\r) // mocklint-disable-line" ∧
    ((issuesOf "a.ts" ";\r) // mocklint-disable-line").all fun issue =>
      (Source.File.ofText "a.ts" ";\r) // mocklint-disable-line").directives.isDisabled
        ((Source.File.ofText "a.ts" ";\r) // mocklint-disable-line").locationOf
          issue.span.start).line ["PARSE"]) = true ∧
    ({} : Engine).analyzeText "a.ts" ";\r) // mocklint-disable-line" ≠ [] := by
  decide +kernel

end Engine

end Lint
end CastLint
