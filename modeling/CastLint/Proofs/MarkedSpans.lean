import CastLint.Proofs.LineNumbers
import CastLint.Report.Excerpt

/-! What an excerpt marks. The line on which a span starts is shown without what ends it, and the
carets under it stand under the characters of the span that are on this line, under all of them and
under no others. -/

namespace CastLint

namespace Report

variable {range : Text.Range} {line : List Char}

theorem caretLength_of_ends (hline : range.stop.line = range.start.line)
    (hcolumn : range.start.column < range.stop.column) :
    caretLength range line = range.stop.column - range.start.column := by
  have hmax : max (range.stop.column - range.start.column) 1 =
      range.stop.column - range.start.column := max_eq_left (by omega)
  simp [caretLength, hline, hcolumn, hmax]

theorem caretLength_of_goes_on (hline : range.start.line < range.stop.line) :
    caretLength range line = max (line.length - (range.start.column - 1)) 1 := by
  simp [caretLength, hline.ne']

end Report

namespace Text

open Location

/-- What ends a line stands in front: a line feed, or a carriage return and a line feed. -/
def StartsBreak (cs : List Char) : Prop := ['\n'] <+: cs ∨ ['\r', '\n'] <+: cs

instance startsBreakDecidable (cs : List Char) : Decidable (StartsBreak cs) :=
  inferInstanceAs (Decidable (_ ∨ _))

/-- A stretch of a text, behind `front` and in front of `back`, whose first and last characters do not
belong to what ends a line. -/
structure LiesOnLines (cs front inside back : List Char) : Prop where
  text : cs = front ++ inside ++ back
  ne_nil : inside ≠ []
  first : ¬StartsBreak (inside ++ back)
  last : ∀ c ∈ inside.getLast?, ¬StartsBreak (c :: back)

/-- A line is shown without what ends it, and of the shown characters `covered` are those of a span
that starts on the line. -/
structure Covers (cs : List Char) (span : Syntax.Span) (i : ℕ) (shown indent covered : List Char) :
    Prop where
  line : lineAt? cs i = some shown
  cut : indent ++ covered <+: shown
  ne_nil : covered ≠ []
  /-- The span starts behind `indent`, and what is covered ends where the span or the line does. -/
  place : ∃ start ∈ (lineStarts cs)[i]?, start + byteLength indent = span.start ∧
    start + byteLength (indent ++ covered) = min span.stop (start + byteLength shown)

section

variable {cs front inside back before line left right rest more : List Char} {i : ℕ}

theorem startsBreak_lineFeed (cs : List Char) : StartsBreak ('\n' :: cs) := Or.inl ⟨cs, rfl⟩

theorem startsBreak_return (cs : List Char) : StartsBreak ('\r' :: '\n' :: cs) := Or.inr ⟨cs, rfl⟩

theorem getElem?_lines_of_lineAt? (h : lineAt? cs i = some line) (hne : line ≠ []) :
    (lines cs)[i]? = some line := by
  rw [getElem?_lines, h, if_pos]
  have hi : i < (lineStarts cs).length := by
    by_contra hge
    rw [lineAt?, List.getElem?_eq_none (Nat.le_of_not_lt hge)] at h
    simp at h
  obtain ⟨before, text, rest, hline⟩ := exists_isLine_of_lt hi
  obtain hlt | ⟨-, hempty⟩ := hline.counted
  · exact hlt
  · exact absurd (Option.some.inj (h.symm.trans hempty)) hne

theorem IsLine.lineAt?_of_return (h : IsLine cs i before (line ++ ['\r']) ('\n' :: rest)) :
    lineAt? cs i = some line := by
  rw [h.lineAt?_eq]
  simp

theorem IsLine.lineAt?_of_last (h : IsLine cs i before line rest)
    (hlast : ∀ c ∈ line.getLast?, ¬StartsBreak (c :: rest)) : lineAt? cs i = some line := by
  rw [h.lineAt?_eq, if_neg]
  rintro ⟨hrest, hreturn⟩
  obtain ⟨rest, rfl⟩ := List.head?_eq_some_iff.mp (h.stop.resolve_left hrest)
  exact hlast '\r' hreturn (startsBreak_return rest)

theorem IsLine.ends_or_goes_on (h : IsLine cs i before (left ++ right) rest)
    (hback : inside ++ back = right ++ rest) :
    (∃ more, right = inside ++ more ∧ back = more ++ rest) ∨
      ∃ more, inside = right ++ '\n' :: more ∧ rest = '\n' :: more ++ back := by
  obtain ⟨more, hright, hmore⟩ | ⟨more, hinside, hrest⟩ := List.append_eq_append_iff.mp hback
  · exact Or.inl ⟨more, hright, hmore⟩
  · cases more with
    | nil => exact Or.inl ⟨[], by simpa using hinside.symm, by simpa using hrest.symm⟩
    | cons c more =>
      obtain hnil | hhead := h.stop
      · simp [hnil] at hrest
      · obtain rfl : c = '\n' := by simpa [hrest] using hhead
        exact Or.inr ⟨more, hinside, hrest⟩

theorem IsLine.exists_shown_of_ends (h : IsLine cs i before (left ++ (inside ++ more)) rest)
    (hne : inside ≠ []) (hlast : ∀ c ∈ inside.getLast?, ¬StartsBreak (c :: (more ++ rest))) :
    ∃ tail, lineAt? cs i = some (left ++ inside ++ tail) := by
  obtain rfl | ⟨init, c, rfl⟩ := List.eq_nil_or_concat more
  · refine ⟨[], ?_⟩
    simp only [List.append_nil, List.nil_append] at h hlast ⊢
    refine h.lineAt?_of_last ?_
    rwa [List.getLast?_append_of_ne_nil _ hne]
  · have hdrop : (left ++ (inside ++ init.concat c)).dropLast = left ++ inside ++ init := by
      rw [List.concat_eq_append, ← List.append_assoc, ← List.append_assoc, List.dropLast_concat]
    rw [h.lineAt?_eq, hdrop]
    split
    · exact ⟨init, rfl⟩
    · exact ⟨init.concat c, by rw [List.append_assoc]⟩

theorem IsLine.exists_shown_of_goes_on (h : IsLine cs i before (left ++ right) ('\n' :: rest))
    (hfirst : ¬StartsBreak (right ++ '\n' :: rest)) :
    ∃ covered, covered ≠ [] ∧ covered <+: right ∧ lineAt? cs i = some (left ++ covered) := by
  obtain rfl | ⟨init, c, rfl⟩ := List.eq_nil_or_concat right
  · exact absurd (startsBreak_lineFeed rest) hfirst
  rw [List.concat_eq_append] at h hfirst ⊢
  by_cases hc : c = '\r'
  · subst hc
    refine ⟨init, ?_, List.prefix_append _ _, ?_⟩
    · rintro rfl
      exact hfirst (startsBreak_return rest)
    · rw [← List.append_assoc] at h
      exact h.lineAt?_of_return
  · refine ⟨init ++ [c], by simp, List.prefix_rfl, h.lineAt?_of_last ?_⟩
    intro d hd
    obtain rfl : c = d := by simpa using hd
    rintro (⟨text, htext⟩ | ⟨text, htext⟩)
    · have hmem := h.inside
      simp [← (List.cons.inj htext).1] at hmem
    · exact hc (List.cons.inj htext).1.symm

theorem caretLength_of_notMem (front shown : List Char) (hne : inside ≠ []) (h : '\n' ∉ inside) :
    Report.caretLength ⟨origin.advanceAll front, origin.advanceAll (front ++ inside)⟩ shown =
      inside.length := by
  have hpos : 0 < inside.length := List.length_pos_iff.mpr hne
  rw [advanceAll_append, advanceAll_of_notMem _ h,
    Report.caretLength_of_ends rfl (Nat.lt_add_of_pos_right hpos)]
  exact Nat.add_sub_cancel_left _ _

theorem caretLength_of_mem (front shown : List Char) (h : '\n' ∈ inside) :
    Report.caretLength ⟨origin.advanceAll front, origin.advanceAll (front ++ inside)⟩ shown =
      max (shown.length - ((origin.advanceAll front).column - 1)) 1 := by
  have hcount : 0 < inside.count '\n' := List.count_pos_iff.mpr h
  refine Report.caretLength_of_goes_on ?_
  simp only [advanceAll_line, List.count_append]
  omega

theorem LiesOnLines.exists_covers (h : LiesOnLines cs front inside back) :
    ∃ i shown indent covered,
      Covers cs ⟨byteLength front, byteLength (front ++ inside)⟩ i shown indent covered ∧
      (origin.advanceAll front).line = i + 1 ∧
      (origin.advanceAll front).column = indent.length + 1 ∧
      Report.caretLength ⟨origin.advanceAll front, origin.advanceAll (front ++ inside)⟩ shown =
        covered.length := by
  obtain ⟨before, left, right, rest, hline, rfl, hback⟩ := exists_isLine front (inside ++ back)
  have hcs : cs = before ++ left ++ (inside ++ back) := by rw [h.text, List.append_assoc]
  rw [← hcs] at hline
  have hleft : '\n' ∉ left := fun hmem => hline.inside (List.mem_append_left _ hmem)
  have hcolumn : (origin.advanceAll (before ++ left)).column = left.length + 1 := by
    rw [advanceAll_append, advanceAll_of_notMem _ hleft, column_of_line_start hline.start]
    exact Nat.add_comm 1 _
  have hnumber : (origin.advanceAll (before ++ left)).line = (before ++ left).count '\n' + 1 := by
    rw [advanceAll_line, origin, Nat.add_comm]
  have hstart : byteLength before ∈ (lineStarts cs)[(before ++ left).count '\n']? :=
    hline.getElem?_lineStarts
  obtain ⟨more, rfl, rfl⟩ | ⟨more, rfl, rfl⟩ := hline.ends_or_goes_on hback
  · -- the stretch ends on its line
    obtain ⟨tail, hshown⟩ := hline.exists_shown_of_ends h.ne_nil h.last
    have hinside : '\n' ∉ inside := fun hmem => hline.inside (by simp [hmem])
    refine ⟨_, _, left, inside, ⟨hshown, ⟨tail, rfl⟩, h.ne_nil, _, hstart, ?_, ?_⟩, hnumber,
      hcolumn, caretLength_of_notMem _ _ h.ne_nil hinside⟩
    · rw [byteLength_append]
    · simp only [byteLength_append]
      omega
  · -- the stretch goes on behind its line
    obtain ⟨covered, hne, ⟨last, rfl⟩, hshown⟩ := hline.exists_shown_of_goes_on (by simpa using h.first)
    have hcovered : 0 < covered.length := List.length_pos_iff.mpr hne
    refine ⟨_, _, left, covered, ⟨hshown, List.prefix_rfl, hne, _, hstart, ?_, ?_⟩, hnumber,
      hcolumn, ?_⟩
    · rw [byteLength_append]
    · simp only [byteLength_append]
      omega
    · rw [caretLength_of_mem _ _ (by simp), hcolumn, List.length_append]
      omega

end

end Text

namespace Report

open Text Lint

/-- The rows that show a line under its number, with carets under some of its characters. What stands
left of the bar is as wide as the number. -/
def markedRows (number : ℕ) (shown : List Char) (indent marked : ℕ) : List String :=
  let gutter := run (toString number).length ' '
  [gutter ++ " |", toString number ++ " | " ++ String.ofList shown,
    gutter ++ " | " ++ run indent ' ' ++ run marked '^', gutter ++ " |"]

section

variable {sources : Sources} {findings : List Diagnostic} {d : Diagnostic} {line : List Char}

theorem findingLines_plain (h : sourceLine? sources d.file d.range.start.line = some line) :
    findingLines false sources d =
      (findingLines false [] d).take 2 ++
        markedRows d.range.start.line line (d.range.start.column - 1) (caretLength d.range line) ++
        (findingLines false [] d).drop 2 := by
  have hnone : sourceLine? [] d.file d.range.start.line = none := by
    cases d.range.start.line <;> rfl
  simp [findingLines, h, hnone, excerpt, markedRows, blue, paint, String.append_assoc]

theorem exists_excerpts_eq (coloured : Coloured) (sources : Sources) (h : d ∈ findings) :
    ∃ before after, excerpts coloured sources findings =
      before ++ "\n".intercalate (findingLines coloured sources d) ++ "\n" ++ after := by
  obtain ⟨front, back, rfl⟩ := List.append_of_mem h
  let block := fun d => "\n".intercalate (findingLines coloured sources d) ++ "\n"
  refine ⟨String.join (front.map block), String.join (back.map block) ++
    excerptSummary coloured (front ++ d :: back), ?_⟩
  simp [excerpts, block, String.append_assoc]

/-- Reports show a span on its line. The line on which the span starts stands under its number, without
what ends it, and the carets under it begin under the first character of the span and end under its
last character, or under the last one that is shown of the line. -/
theorem span_isMarked {file : Source.File} {span : Syntax.Span} {front inside back : List Char}
    (h : LiesOnLines file.chars front inside back) (hstart : byteLength front = span.start)
    (hstop : byteLength (front ++ inside) = span.stop) :
    ∃ range i shown indent covered,
      file.rangeOf? span = some range ∧ Covers file.chars span i shown indent covered ∧
        ∀ (sources : Sources) (d : Diagnostic), sources.lookup d.file = some file.text →
          d.range = range →
            findingLines false sources d =
              (findingLines false [] d).take 2 ++
                markedRows (i + 1) shown indent.length covered.length ++
                (findingLines false [] d).drop 2 ∧
            ∀ findings : List Diagnostic, d ∈ findings →
              ∃ before after, excerpts false sources findings =
                before ++ "\n".intercalate (findingLines false sources d) ++ "\n" ++ after := by
  obtain ⟨i, shown, indent, covered, hcovers, hline, hcolumn, hcarets⟩ := h.exists_covers
  obtain rfl : span = ⟨byteLength front, byteLength (front ++ inside)⟩ := by rw [hstart, hstop]
  have hchars : file.chars = front ++ (inside ++ back) := by rw [h.text, List.append_assoc]
  have hrange : file.rangeOf? ⟨byteLength front, byteLength (front ++ inside)⟩ =
      some ⟨Location.origin.advanceAll front, Location.origin.advanceAll (front ++ inside)⟩ := by
    rw [Source.File.rangeOf?, if_pos, Source.File.locationOf, Source.File.locationOf,
      hchars, locate_append, ← List.append_assoc, locate_append]
    simp [Source.File.contains, h.text]
  have hne : shown ≠ [] := by
    rintro rfl
    have hnil := List.prefix_nil.mp hcovers.cut
    exact hcovers.ne_nil (List.append_eq_nil_iff.mp hnil).2
  refine ⟨_, i, shown, indent, covered, hrange, hcovers, fun sources d hsource hd =>
    ⟨?_, fun findings hmem => exists_excerpts_eq false sources hmem⟩⟩
  have hshown : sourceLine? sources d.file d.range.start.line = some shown := by
    rw [hd, hline, sourceLine?, hsource]
    exact getElem?_lines_of_lineAt? hcovers.line hne
  rw [findingLines_plain hshown, hd, hline, hcolumn, hcarets, Nat.add_sub_cancel]

end

/-- A sum that goes on behind a carriage return and a line feed. -/
def foldedSum : String := "x = é +\r\n  1;"

/-- A finding about the sum, which is neither at the start nor at the end of the text. -/
def foldedFinding : Diagnostic where
  ruleId := "sum"
  severity := .error
  message := "no sums"
  file := "a.ts"
  range := ⟨⟨1, 5⟩, ⟨2, 4⟩⟩

theorem foldedSum_isMarked :
    let file := Source.File.ofText "a.ts" foldedSum
    let sources := [("a.ts", foldedSum)]
    LiesOnLines file.chars "x = ".toList "é +\r\n  1".toList [';'] ∧
      file.rangeOf? ⟨4, 13⟩ = some foldedFinding.range ∧
      (∃ i shown indent covered, Covers file.chars ⟨4, 13⟩ i shown indent covered ∧
        findingLines false sources foldedFinding =
          (findingLines false [] foldedFinding).take 2 ++
            markedRows (i + 1) shown indent.length covered.length ++
            (findingLines false [] foldedFinding).drop 2) ∧
      findingLines false sources foldedFinding =
        ["error[sum]: no sums", "  --> a.ts:1:5", "  |", "1 | x = é +", "  |     ^^^", "  |"] := by
  intro file sources
  have hlast : "é +\r\n  1".toList.getLast? = some '1' := by decide +kernel
  have hlies : LiesOnLines file.chars "x = ".toList "é +\r\n  1".toList [';'] := by
    refine ⟨by decide +kernel, by decide +kernel, by decide +kernel, fun c hc => ?_⟩
    obtain rfl : '1' = c := Option.some.inj (hlast.symm.trans hc)
    decide
  have hrange : file.rangeOf? ⟨4, 13⟩ = some foldedFinding.range := by decide +kernel
  obtain ⟨range, i, shown, indent, covered, hsome, hcovers, hrows⟩ :=
    @span_isMarked file ⟨4, 13⟩ _ _ _ hlies (by decide +kernel) (by decide +kernel)
  obtain rfl : range = foldedFinding.range := Option.some.inj (hsome.symm.trans hrange)
  exact ⟨hlies, hrange,
    ⟨i, shown, indent, covered, hcovers, (hrows sources foldedFinding (by decide +kernel) rfl).1⟩,
    by decide +kernel⟩

end Report

end CastLint
