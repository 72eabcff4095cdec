import CastLint.Proofs.DirectiveLines
import CastLint.Proofs.Locations
import CastLint.Report.Excerpt
import CastLint.Source.File
import Mathlib.Data.List.Basic

/-! The lines of a text and their numbers. A line is a stretch between two line starts; the lines
that directives and reports count are these stretches without what ends them, and the line of a
location is the stretch around its offset. -/

namespace CastLint
namespace Text

/-! ### Where lines start and end -/

/-- The offsets behind the line feeds of a text that starts at `offset`. -/
def startsFrom (offset : ℕ) : List Char → List ℕ
  | [] => []
  | c :: cs =>
    if c = '\n' then (offset + 1) :: startsFrom (offset + 1) cs
    else startsFrom (offset + c.utf8Size) cs

def lineStarts (cs : List Char) : List ℕ := 0 :: startsFrom 0 cs

/-- Where a line ends: in front of its line feed, or else where the text does. -/
def lineEnd (cs : List Char) (i : ℕ) : ℕ :=
  match (lineStarts cs)[i + 1]? with
  | some next => next - 1
  | none => byteLength cs

/-- The text of a line, from its start to its end. A carriage return in front of the line feed does
not belong to it. -/
def lineAt? (cs : List Char) (i : ℕ) : Option (List Char) :=
  match (lineStarts cs)[i]? with
  | none => none
  | some start =>
    (sliceBytes cs start (lineEnd cs i)).map fun line =>
      if (lineStarts cs)[i + 1]?.isSome && line.getLast? = some '\r' then line.dropLast else line

theorem startsFrom_append (offset : ℕ) (xs ys : List Char) :
    startsFrom offset (xs ++ ys) =
      startsFrom offset xs ++ startsFrom (offset + byteLength xs) ys := by
  induction xs generalizing offset with
  | nil => simp [startsFrom]
  | cons c xs ih =>
    by_cases hc : c = '\n'
    · have hsize : ('\n' : Char).utf8Size = 1 := by decide
      simp [startsFrom, hc, ih, hsize, Nat.add_assoc]
    · simp [startsFrom, hc, ih, Nat.add_assoc]

theorem startsFrom_of_notMem (offset : ℕ) {cs : List Char} (h : '\n' ∉ cs) :
    startsFrom offset cs = [] := by
  induction cs generalizing offset with
  | nil => rfl
  | cons c cs ih =>
    obtain ⟨hc, hcs⟩ := List.ne_and_not_mem_of_not_mem_cons h
    rw [startsFrom, if_neg hc.symm, ih _ hcs]

@[simp] theorem startsFrom_length (offset : ℕ) (cs : List Char) :
    (startsFrom offset cs).length = cs.count '\n' := by
  induction cs generalizing offset with
  | nil => rfl
  | cons c cs ih =>
    by_cases hc : c = '\n'
    · simp [startsFrom, hc, ih]
    · simp [startsFrom, hc, ih]

theorem lt_of_mem_startsFrom {offset start : ℕ} {cs : List Char} (h : start ∈ startsFrom offset cs) :
    offset < start ∧ start ≤ offset + byteLength cs := by
  induction cs generalizing offset with
  | nil => simp [startsFrom] at h
  | cons c cs ih =>
    have hc := c.utf8Size_pos
    rw [startsFrom] at h
    rw [byteLength_cons]
    split at h
    · obtain rfl | h := List.mem_cons.mp h
      · omega
      · have hrest := ih h
        omega
    · have hrest := ih h
      omega

/-! ### A line within its text -/

/-- A text cut around a line of it: `before` ends where the line starts, and `rest` starts with what
ends the line. -/
structure IsLine (cs : List Char) (i : ℕ) (before line rest : List Char) : Prop where
  text : cs = before ++ line ++ rest
  start : before = [] ∨ before.getLast? = some '\n'
  inside : '\n' ∉ line
  stop : rest = [] ∨ rest.head? = some '\n'
  number : before.count '\n' = i

theorem exists_first_line (cs : List Char) :
    ∃ line rest, cs = line ++ rest ∧ '\n' ∉ line ∧ (rest = [] ∨ rest.head? = some '\n') := by
  induction cs with
  | nil => exact ⟨[], [], rfl, by simp, Or.inl rfl⟩
  | cons c cs ih =>
    by_cases hc : c = '\n'
    · exact ⟨[], c :: cs, rfl, by simp, Or.inr (by simp [hc])⟩
    · obtain ⟨line, rest, rfl, hline, hrest⟩ := ih
      exact ⟨c :: line, rest, rfl, by simp [hline, Ne.symm hc], hrest⟩

theorem exists_isLine (front back : List Char) :
    ∃ before left right rest, IsLine (front ++ back) (front.count '\n') before (left ++ right) rest ∧
      front = before ++ left ∧ back = right ++ rest := by
  obtain ⟨before, left, rfl, hstart, hleft⟩ := exists_last_line front
  obtain ⟨right, rest, rfl, hright, hstop⟩ := exists_first_line back
  refine ⟨before, left, right, rest, ⟨by simp, hstart, by simp [hleft, hright], hstop, ?_⟩, rfl, rfl⟩
  rw [List.count_append, List.count_eq_zero.mpr hleft, Nat.add_zero]

section

variable {cs before line rest : List Char} {i : ℕ}

theorem getLast?_lineStarts (h : before = [] ∨ before.getLast? = some '\n') :
    (0 :: startsFrom 0 before).getLast? = some (byteLength before) := by
  obtain rfl | hlast := h
  · rfl
  · obtain ⟨init, rfl⟩ := List.getLast?_eq_some_iff.mp hlast
    have hsize : ('\n' : Char).utf8Size = 1 := by decide
    simp [startsFrom_append, startsFrom, hsize, List.getLast?_cons]

theorem IsLine.lineStarts_eq (h : IsLine cs i before line rest) :
    lineStarts cs = (0 :: startsFrom 0 before) ++ startsFrom (byteLength (before ++ line)) rest := by
  rw [h.text, lineStarts, startsFrom_append, startsFrom_append, startsFrom_of_notMem _ h.inside]
  simp

theorem IsLine.getElem?_lineStarts (h : IsLine cs i before line rest) :
    (lineStarts cs)[i]? = some (byteLength before) := by
  have hlength : (0 :: startsFrom 0 before).length = i + 1 := by simp [h.number]
  rw [h.lineStarts_eq, List.getElem?_append_left (by omega), ← getLast?_lineStarts h.start,
    List.getLast?_eq_getElem?, hlength, Nat.add_sub_cancel]

theorem IsLine.getElem?_lineStarts_succ (h : IsLine cs i before line rest) :
    (lineStarts cs)[i + 1]? =
      if rest = [] then none else some (byteLength (before ++ line) + 1) := by
  have hlength : (0 :: startsFrom 0 before).length = i + 1 := by simp [h.number]
  rw [h.lineStarts_eq, List.getElem?_append_right (by omega), hlength, Nat.sub_self]
  obtain rfl | hhead := h.stop
  · rfl
  · obtain ⟨rest, rfl⟩ := List.head?_eq_some_iff.mp hhead
    simp [startsFrom]

theorem IsLine.lineEnd_eq (h : IsLine cs i before line rest) :
    lineEnd cs i = byteLength (before ++ line) := by
  rw [lineEnd, h.getElem?_lineStarts_succ]
  by_cases hrest : rest = []
  · simp [hrest, h.text]
  · simp [hrest]

theorem IsLine.lineAt?_eq (h : IsLine cs i before line rest) :
    lineAt? cs i =
      some (if rest ≠ [] ∧ line.getLast? = some '\r' then line.dropLast else line) := by
  have hslice : sliceBytes cs (byteLength before) (byteLength (before ++ line)) = some line :=
    sliceBytes_eq_some_iff.mpr ⟨before, rest, h.text, rfl, rfl⟩
  simp only [lineAt?, h.getElem?_lineStarts, h.lineEnd_eq, h.getElem?_lineStarts_succ, hslice]
  by_cases hrest : rest = [] <;> simp [hrest]

theorem IsLine.countP_lineStarts (h : IsLine cs i before line rest) {offset : ℕ}
    (hstart : byteLength before ≤ offset) (hstop : offset ≤ byteLength (before ++ line)) :
    (lineStarts cs).countP (· ≤ offset) = i + 1 := by
  have hfront : (0 :: startsFrom 0 before).countP (· ≤ offset) = i + 1 := by
    rw [List.countP_eq_length.mpr, List.length_cons, startsFrom_length, h.number]
    intro start hmem
    obtain rfl | hmem := List.mem_cons.mp hmem
    · simp
    · have hle := (lt_of_mem_startsFrom hmem).2
      simp only [decide_eq_true_eq]
      omega
  have hback : (startsFrom (byteLength (before ++ line)) rest).countP (· ≤ offset) = 0 := by
    refine List.countP_eq_zero.mpr fun start hmem => ?_
    have hlt := (lt_of_mem_startsFrom hmem).1
    simp only [decide_eq_true_eq]
    omega
  rw [h.lineStarts_eq, List.countP_append, hfront, hback]

end

theorem exists_isLine_of_lt {cs : List Char} {i : ℕ} (h : i < (lineStarts cs).length) :
    ∃ before line rest, IsLine cs i before line rest := by
  obtain ⟨front, back, rfl, rfl⟩ : ∃ front back, cs = front ++ back ∧ front.count '\n' = i := by
    simp only [lineStarts, List.length_cons, startsFrom_length] at h
    induction cs using List.reverseRecOn with
    | nil => exact ⟨[], [], rfl, by simp_all⟩
    | append_singleton cs c ih =>
      by_cases hi : i < cs.count '\n' + 1
      · obtain ⟨front, back, rfl, hcount⟩ := ih hi
        exact ⟨front, back ++ [c], by simp, hcount⟩
      · refine ⟨cs ++ [c], [], by simp, ?_⟩
        have hle : [c].count '\n' ≤ 1 := List.count_le_length
        rw [List.count_append] at h ⊢
        omega
  obtain ⟨before, left, right, rest, hline, -⟩ := exists_isLine front back
  exact ⟨before, left ++ right, rest, hline⟩

/-- The line of a location is the one around its offset. An offset past the end of the text stands
for the end. -/
theorem exists_isLine_of_locate (cs : List Char) (offset : ℕ) :
    ∃ i before line rest, IsLine cs i before line rest ∧ (locate cs offset).line = i + 1 ∧
      byteLength before ≤ min offset (byteLength cs) ∧
      min offset (byteLength cs) ≤ byteLength (before ++ line) := by
  have hnumber : ∀ front : List Char, (Location.origin.advanceAll front).line =
      front.count '\n' + 1 := fun front => by
    rw [Location.advanceAll_line, Location.origin, Nat.add_comm]
  by_cases hpast : byteLength cs < offset
  · obtain ⟨before, left, right, rest, hline, hfront, hback⟩ := exists_isLine cs []
    rw [List.append_nil] at hline
    obtain ⟨rfl, rfl⟩ := List.append_eq_nil_iff.mp hback.symm
    rw [List.append_nil] at hline
    refine ⟨_, before, left, [], hline, ?_, ?_, ?_⟩
    · rw [locate_past_end hpast, hnumber]
    · rw [min_eq_right hpast.le, hfront, byteLength_append]
      omega
    · rw [min_eq_right hpast.le, hfront]
  · rw [min_eq_left (by omega)]
    obtain ⟨front, back, rfl, rfl⟩ | ⟨front, c, back, n, rfl, rfl, hpos, hinside⟩ :=
      isBoundary_or_inside (by omega : offset ≤ byteLength cs)
    · obtain ⟨before, left, right, rest, hline, rfl, rfl⟩ := exists_isLine front back
      refine ⟨_, before, left ++ right, rest, hline, ?_, ?_, ?_⟩
      · rw [locate_append, hnumber]
      · simp
      · simp
    · obtain ⟨before, left, right, rest, hline, rfl, hback⟩ := exists_isLine front (c :: back)
      refine ⟨_, before, left ++ right, rest, hline, ?_, ?_, ?_⟩
      · rw [locate_inside _ _ _ hpos hinside, hnumber]
      · simp only [byteLength_append]
        omega
      · -- a character of several bytes ends no line, so the line goes on behind it
        cases right with
        | nil =>
          obtain hrest | hhead := hline.stop
          · simp [hrest] at hback
          · have hc : c = '\n' := by
              rw [List.nil_append] at hback
              simpa [← hback] using hhead
            have hsize : ('\n' : Char).utf8Size = 1 := by decide
            rw [hc, hsize] at hinside
            omega
        | cons d right =>
          obtain ⟨rfl, -⟩ := List.cons.inj hback
          simp only [byteLength_append, byteLength_cons]
          omega

/-! ### The lines that are counted -/

theorem linesFrom_append {cs : List Char} (h : '\n' ∉ cs) (line rest : List Char) :
    linesFrom line (cs ++ rest) = linesFrom (cs.reverse ++ line) rest := by
  induction cs generalizing line with
  | nil => rfl
  | cons c cs ih =>
    obtain ⟨hc, hcs⟩ := List.ne_and_not_mem_of_not_mem_cons h
    rw [List.cons_append, linesFrom, if_neg hc.symm, ih hcs]
    simp

theorem linesFrom_append_lineFeed (line front rest : List Char) :
    linesFrom line (front ++ '\n' :: rest) = linesFrom line (front ++ ['\n']) ++ lines rest := by
  induction front generalizing line with
  | nil => simp [linesFrom, lines]
  | cons c front ih =>
    by_cases hc : c = '\n'
    · simp [linesFrom, hc, ih]
    · simp [linesFrom, hc, ih]

theorem linesFrom_length (line front : List Char) :
    (linesFrom line (front ++ ['\n'])).length = front.count '\n' + 1 := by
  induction front generalizing line with
  | nil => simp [linesFrom]
  | cons c front ih =>
    by_cases hc : c = '\n'
    · simp [linesFrom, hc, ih]
    · simp [linesFrom, hc, ih]

section

variable {cs before line rest : List Char} {i : ℕ}

theorem lines_append (h : before = [] ∨ before.getLast? = some '\n') (rest : List Char) :
    lines (before ++ rest) = lines before ++ lines rest := by
  obtain rfl | hlast := h
  · rfl
  · obtain ⟨init, rfl⟩ := List.getLast?_eq_some_iff.mp hlast
    rw [List.append_assoc]
    exact linesFrom_append_lineFeed [] init rest

theorem lines_length_of_start (h : before = [] ∨ before.getLast? = some '\n') :
    (lines before).length = before.count '\n' := by
  obtain rfl | hlast := h
  · rfl
  · obtain ⟨init, rfl⟩ := List.getLast?_eq_some_iff.mp hlast
    rw [lines, linesFrom_length, List.count_append, List.count_singleton_self]

theorem lines_of_notMem (h : '\n' ∉ line) : lines line = if line = [] then [] else [line] := by
  have happend := linesFrom_append h [] []
  rw [List.append_nil, List.append_nil] at happend
  rw [lines, happend, linesFrom]
  by_cases hline : line = [] <;> simp [hline]

theorem reverse_dropReturn_reverse (line : List Char) :
    (dropReturn line.reverse).reverse =
      if line.getLast? = some '\r' then line.dropLast else line := by
  induction line using List.reverseRecOn with
  | nil => rfl
  | append_singleton line c =>
    by_cases hc : c = '\r'
    · simp [dropReturn, hc]
    · have hdrop : dropReturn (c :: line.reverse) = c :: line.reverse := by
        unfold dropReturn
        split
        · simp_all
        · rfl
      simp [hdrop, hc]

/-- The line with a number is counted under that number, unless it is empty and ends the text. -/
theorem IsLine.getElem?_lines (h : IsLine cs i before line rest) :
    (lines cs)[i]? = if line = [] ∧ rest = [] then none else lineAt? cs i := by
  have hlength : (lines before).length = i := (lines_length_of_start h.start).trans h.number
  rw [h.lineAt?_eq, h.text, List.append_assoc, lines_append h.start,
    List.getElem?_append_right (by omega), hlength, Nat.sub_self]
  obtain rfl | hhead := h.stop
  · rw [List.append_nil, lines_of_notMem h.inside]
    by_cases hline : line = [] <;> simp [hline]
  · obtain ⟨rest, rfl⟩ := List.head?_eq_some_iff.mp hhead
    rw [lines, linesFrom_append h.inside, linesFrom]
    simp [reverse_dropReturn_reverse]

theorem IsLine.counted (h : IsLine cs i before line rest) :
    i < (lines cs).length ∨ i = (lines cs).length ∧ lineAt? cs i = some [] := by
  by_cases hvoid : line = [] ∧ rest = []
  · obtain ⟨rfl, rfl⟩ := hvoid
    have htext : cs = before := by simpa using h.text
    refine Or.inr ⟨?_, by simp [h.lineAt?_eq]⟩
    rw [htext, lines_length_of_start h.start, h.number]
  · have hsome := h.getElem?_lines
    rw [if_neg hvoid, h.lineAt?_eq] at hsome
    exact Or.inl (List.getElem?_eq_some_iff.mp hsome).1

theorem getLast?_append_line (hstart : before = [] ∨ before.getLast? = some '\n')
    (hline : '\n' ∉ line) :
    (before ++ line = [] ∨ (before ++ line).getLast? = some '\n') ↔ line = [] := by
  constructor
  · rintro (hnil | hlast)
    · exact (List.append_eq_nil_iff.mp hnil).2
    · by_contra hne
      obtain ⟨init, c, rfl⟩ := List.eq_nil_or_concat line |>.resolve_left hne
      rw [List.concat_eq_append, ← List.append_assoc, List.getLast?_concat] at hlast
      simp [Option.some.inj hlast] at hline
  · rintro rfl
    simpa using hstart

/-- There are as many lines as line starts, but nothing behind the last line feed is no line. -/
theorem lines_length (cs : List Char) :
    (lines cs).length + (if cs = [] ∨ cs.getLast? = some '\n' then 1 else 0) =
      (lineStarts cs).length := by
  obtain ⟨before, line, rfl, hstart, hline⟩ := exists_last_line cs
  rw [lines_append hstart, lines_of_notMem hline, List.length_append, lines_length_of_start hstart,
    lineStarts, List.length_cons, startsFrom_length, List.count_append,
    List.count_eq_zero.mpr hline, if_congr (getLast?_append_line hstart hline) rfl rfl]
  by_cases hnil : line = [] <;> simp [hnil]

theorem getElem?_lines (cs : List Char) (i : ℕ) :
    (lines cs)[i]? = if i < (lines cs).length then lineAt? cs i else none := by
  split
  next hlt =>
    have hstarts := lines_length cs
    obtain ⟨before, line, rest, hline⟩ := exists_isLine_of_lt (by omega : i < (lineStarts cs).length)
    have hsome := hline.getElem?_lines
    rw [List.getElem?_eq_getElem hlt] at hsome ⊢
    split at hsome
    · simp at hsome
    · exact hsome
  next hge => exact List.getElem?_eq_none (by omega)

end

end Text

namespace Source

open Text

namespace File

/-- All lines of a file have the same numbers everywhere. The lines that are counted are those
between line starts, with nothing behind the last line feed left out; directives are read in these
lines under these numbers and answer for the number of their line or for the next one, reports show
these lines under these numbers, and the line of a location is the one around its offset. -/
theorem line_numbers (name text : String) (sources : Report.Sources)
    (hsource : sources.lookup name = some text) :
    let file := ofText name text
    let starts := lineStarts file.chars
    (file.lineCount + (if file.chars = [] ∨ file.chars.getLast? = some '\n' then 1 else 0) =
        starts.length) ∧
      (∀ i, (lines file.chars)[i]? =
        if i < file.lineCount then lineAt? file.chars i else none) ∧
      file.directives = ((List.range file.lineCount).filterMap fun i =>
        (lineAt? file.chars i).bind (directive? (i + 1))).foldl Directives.add {} ∧
      (∀ n refs, file.directives.isDisabled n refs = true ↔
        ∃ i line, i < file.lineCount ∧ lineAt? file.chars i = some line ∧
          (n = i + 2 ∧ SwitchesOff nextLineKeyword line refs ∨
            n = i + 1 ∧ SwitchesOff thisLineKeyword line refs)) ∧
      (∀ i, Report.sourceLine? sources name (i + 1) =
        if i < file.lineCount then lineAt? file.chars i else none) ∧
      ∀ offset, ∃ i start, (file.locationOf offset).line = i + 1 ∧ starts[i]? = some start ∧
        start ≤ min offset (byteLength file.chars) ∧
        min offset (byteLength file.chars) ≤ lineEnd file.chars i ∧
        starts.countP (· ≤ min offset (byteLength file.chars)) = i + 1 ∧
        (i < file.lineCount ∨ i = file.lineCount ∧ lineAt? file.chars i = some []) := by
  intro file starts
  refine ⟨lines_length _, getElem?_lines _, ?_, fun n refs => ?_, fun i => ?_, fun offset => ?_⟩
  · refine congrArg (List.foldl Directives.add {}) ?_
    rw [directivesFrom_eq_filterMap]
    refine List.filterMap_congr fun i hi => ?_
    rw [getElem?_lines, if_pos (List.mem_range.mp hi), Nat.add_comm]
    rfl
  · have hcounted : ∀ i line, (lines file.chars)[i]? = some line ↔
        i < file.lineCount ∧ lineAt? file.chars i = some line := fun i line => by
      rw [getElem?_lines, Option.ite_none_right_eq_some]
      rfl
    have hread : file.directives = Directives.ofText file.chars := rfl
    rw [hread, Directives.isDisabled_ofText_iff_exists]
    simp only [hcounted, and_assoc]
  · rw [Report.sourceLine?, hsource, Option.bind_some]
    exact getElem?_lines _ i
  · obtain ⟨i, before, line, rest, hline, hnumber, hstart, hstop⟩ :=
      exists_isLine_of_locate file.chars offset
    refine ⟨i, byteLength before, hnumber, hline.getElem?_lineStarts, hstart, ?_,
      hline.countP_lineStarts hstart hstop, ?_⟩
    · rwa [hline.lineEnd_eq]
    · exact hline.counted

/-- Lines with and without a carriage return at the end, one with a carriage return inside, and
nothing behind the last line feed. -/
def mixedLines : String := "é; // mocklint-disable-line\r\nb\rc\n\n"

theorem mixedLines_numbers :
    ([("a.ts", mixedLines)] : Report.Sources).lookup "a.ts" = some mixedLines ∧
    (∀ i, Report.sourceLine? [("a.ts", mixedLines)] "a.ts" (i + 1) =
      if i < 3 then lineAt? mixedLines.toList i else none) ∧
    lineStarts mixedLines.toList = [0, 30, 34, 35] ∧
    (lineAt? mixedLines.toList 0).map List.length = some 27 ∧
    lineAt? mixedLines.toList 1 = some ['b', '\r', 'c'] := by
  have hsource : ([("a.ts", mixedLines)] : Report.Sources).lookup "a.ts" = some mixedLines := by
    decide +kernel
  have hcount : (ofText "a.ts" mixedLines).lineCount = 3 := by decide +kernel
  obtain ⟨-, -, -, -, hshown, -⟩ := line_numbers "a.ts" mixedLines _ hsource
  rw [hcount] at hshown
  exact ⟨hsource, hshown, by decide +kernel, by decide +kernel, by decide +kernel⟩

end File

end Source
end CastLint
