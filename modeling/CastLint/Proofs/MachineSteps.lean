import CastLint.Proofs.LineNumbers
import CastLint.Proofs.PermutedFixes

/-! Positions and passes in machine steps. Here the functions on offsets, locations and spans, and
the loop over edits, are written with every step at which a machine could fail: a number has 64
bits, a table has an entry or not, a search by halves needs a table that is in order, and a text is
cut between two characters or not at all. No step fails, whatever positions come in, so each of
these functions gives what the one over unbounded numbers gives. -/

namespace CastLint
namespace Machine

open Text

/-- What ends a run: a number below zero or past the largest one, an entry that a table does not
have, a search in a table out of order, and a cut inside a character, past the end or backwards. -/
inductive Fault where
  | overflow | noEntry | disorder | badCut
deriving DecidableEq, Repr

abbrev Run (α : Type) := Except Fault α

@[simp] theorem ok_bind {α β : Type} (a : α) (f : α → Run β) :
    ((Except.ok a : Run α) >>= f) = f a := rfl

/-! ### Steps -/

/-- The first number with more than 64 bits. -/
def limit : ℕ := UInt64.size

def add (a b : ℕ) : Run ℕ := if a + b < limit then .ok (a + b) else .error .overflow

def sub (a b : ℕ) : Run ℕ := if b ≤ a then .ok (a - b) else .error .overflow

/-- A difference, or nothing if it would be below zero. -/
def sub? (a b : ℕ) : Option ℕ := if b ≤ a then some (a - b) else none

def entry (table : List ℕ) (i : ℕ) : Run ℕ :=
  match table[i]? with
  | some n => .ok n
  | none => .error .noEntry

/-- The number of entries up to `n`, which all have to come in front of the others. -/
def countUpTo (table : List ℕ) (n : ℕ) : Run ℕ :=
  let front := table.takeWhile (· ≤ n)
  if (table.drop front.length).all (n < ·) then .ok front.length else .error .disorder

def cut (text : List Char) (start stop : ℕ) : Run (List Char) :=
  match sliceBytes text start stop with
  | some mid => .ok mid
  | none => .error .badCut

section

variable {a b i n : ℕ} {table low high : List ℕ} {front mid back text : List Char}

theorem add_run (h : a + b < limit) : add a b = .ok (a + b) := if_pos h

theorem sub_run (h : b ≤ a) : sub a b = .ok (a - b) := if_pos h

theorem entry_run (h : table[i]? = some n) : entry table i = .ok n := by
  rw [entry, h]

theorem countUpTo_run (hlow : ∀ m ∈ low, m ≤ n) (hhigh : ∀ m ∈ high, n < m) :
    countUpTo (low ++ high) n = .ok low.length := by
  have hnone : high.takeWhile (· ≤ n) = [] := by
    cases high with
    | nil => rfl
    | cons m high =>
      have hm : n < m := hhigh m (by simp)
      simp [Nat.not_le_of_lt hm]
  have hfront : (low ++ high).takeWhile (· ≤ n) = low := by
    rw [List.takeWhile_append_of_pos (by simpa using hlow), hnone, List.append_nil]
  have hback : high.all (n < ·) = true := by simpa using hhigh
  simp only [countUpTo, hfront, List.drop_left, hback, if_true]

theorem cut_run (front mid back : List Char) :
    cut (front ++ mid ++ back) (byteLength front) (byteLength (front ++ mid)) = .ok mid := by
  have hslice : sliceBytes (front ++ mid ++ back) (byteLength front) (byteLength (front ++ mid)) =
      some mid := sliceBytes_eq_some_iff.mpr ⟨front, back, rfl, rfl, rfl⟩
  rw [cut, hslice]

example : cut ['é'] 0 1 = .error .badCut ∧ cut ['a', 'b'] 2 1 = .error .badCut ∧
    countUpTo [0, 5, 3] 4 = .error .disorder := by decide

end

/-! ### Lines and columns -/

def startsFrom (offset : ℕ) : List Char → Run (List ℕ)
  | [] => .ok []
  | c :: cs => do
    let more ← startsFrom (offset + c.utf8Size) cs
    if c = '\n' then
      let next ← add offset 1
      .ok (next :: more)
    else .ok more

def lineStarts (text : List Char) : Run (List ℕ) := do
  let more ← startsFrom 0 text
  .ok (0 :: more)

def lineEnd (text : List Char) (i : ℕ) : Run ℕ := do
  let starts ← lineStarts text
  let next ← add i 1
  match starts[next]? with
  | some start => sub start 1
  | none => .ok (byteLength text)

def locate (text : List Char) (offset : ℕ) : Run Location := do
  let offset := min offset (byteLength text)
  let starts ← lineStarts text
  let count ← countUpTo starts offset
  -- this subtraction stops at zero
  let i := count - 1
  let start ← entry starts i
  let columns := ((sliceBytes text start offset).map List.length).getD 0
  let line ← add i 1
  let column ← add columns 1
  .ok ⟨line, column⟩

def offsetOf? (text : List Char) (line column : ℕ) : Run (Option ℕ) :=
  if line = 0 ∨ column = 0 then .ok none
  else do
    let starts ← lineStarts text
    let i ← sub line 1
    match starts[i]? with
    | none => .ok none
    | some start => do
      let stop ← lineEnd text i
      let shown ← cut text start stop
      let wanted ← sub column 1
      if wanted < shown.length then do
        let offset ← add start (byteLength (shown.take wanted))
        .ok (some offset)
      else if shown.length = wanted then .ok (some stop)
      else .ok none

theorem length_le_byteLength (cs : List Char) : cs.length ≤ byteLength cs := by
  induction cs with
  | nil => rfl
  | cons c cs ih =>
    have hc := c.utf8Size_pos
    rw [List.length_cons, byteLength_cons]
    omega

theorem lineStarts_length_le (cs : List Char) :
    (Text.lineStarts cs).length ≤ byteLength cs + 1 := by
  have hcount : cs.count '\n' ≤ cs.length := List.count_le_length
  have hlength := length_le_byteLength cs
  rw [Text.lineStarts, List.length_cons, startsFrom_length]
  omega

theorem startsFrom_run {offset : ℕ} {cs : List Char} (h : offset + byteLength cs < limit) :
    startsFrom offset cs = .ok (Text.startsFrom offset cs) := by
  induction cs generalizing offset with
  | nil => rfl
  | cons c cs ih =>
    rw [byteLength_cons] at h
    have hrest : startsFrom (offset + c.utf8Size) cs =
        .ok (Text.startsFrom (offset + c.utf8Size) cs) := ih (by omega)
    by_cases hc : c = '\n'
    · have hsize : ('\n' : Char).utf8Size = 1 := by decide
      subst hc
      rw [hsize] at h hrest
      simp [startsFrom, Text.startsFrom, hsize, hrest, add_run (by omega : offset + 1 < limit)]
    · simp [startsFrom, Text.startsFrom, hc, hrest]

theorem locate_min (text : List Char) (offset : ℕ) :
    Text.locate text (min offset (byteLength text)) = Text.locate text offset := by
  by_cases hpast : byteLength text < offset
  · have hend := locate_append text []
    rw [List.append_nil] at hend
    rw [min_eq_right hpast.le, hend, locate_past_end hpast]
  · rw [min_eq_left (Nat.le_of_not_lt hpast)]

section

variable {text before line rest : List Char} {i offset : ℕ}

theorem lt_of_isLine (h : IsLine text i before line rest) : i < (Text.lineStarts text).length :=
  (List.getElem?_eq_some_iff.mp h.getElem?_lineStarts).1

theorem isLine_unique {before' line' rest' : List Char} (h : IsLine text i before line rest)
    (h' : IsLine text i before' line' rest') : before' = before ∧ line' = line := by
  have hstart : byteLength before' = byteLength before := by
    have heq := h'.getElem?_lineStarts.symm.trans h.getElem?_lineStarts
    exact Option.some.inj heq
  have hstop : byteLength (before' ++ line') = byteLength (before ++ line) :=
    h'.lineEnd_eq.symm.trans h.lineEnd_eq
  have hbefore := splitAtByte_append before (line ++ rest)
  have hboth := splitAtByte_append (before ++ line) rest
  rw [← List.append_assoc, ← h.text, ← hstart, h'.text, List.append_assoc,
    splitAtByte_append] at hbefore
  rw [← h.text, ← hstop, h'.text, splitAtByte_append] at hboth
  simp only [Option.some.injEq, Prod.mk.injEq] at hbefore hboth
  obtain ⟨rfl, -⟩ := hbefore
  exact ⟨rfl, List.append_cancel_left hboth.1⟩

theorem countUpTo_lineStarts (h : IsLine text i before line rest)
    (hstart : byteLength before ≤ offset) (hstop : offset ≤ byteLength (before ++ line)) :
    countUpTo (Text.lineStarts text) offset = .ok (i + 1) := by
  -- the table is cut behind the entry of the line, the last one up to the offset
  have hlow : ∀ m ∈ 0 :: Text.startsFrom 0 before, m ≤ offset := by
    intro m hm
    obtain rfl | hm := List.mem_cons.mp hm
    · exact Nat.zero_le offset
    · have hle := (lt_of_mem_startsFrom hm).2
      omega
  have hhigh : ∀ m ∈ Text.startsFrom (byteLength (before ++ line)) rest, offset < m := by
    intro m hm
    have hlt := (lt_of_mem_startsFrom hm).1
    omega
  have hlength : (0 :: Text.startsFrom 0 before).length = i + 1 := by simp [h.number]
  rw [h.lineStarts_eq, countUpTo_run hlow hhigh, hlength]

/-- The characters between the start of a line and an offset on it, none if the offset is inside a
character, are those in front of its column. -/
theorem columns_eq (h : IsLine text i before line rest) (hstart : byteLength before ≤ offset)
    (hstop : offset ≤ byteLength (before ++ line)) :
    ((sliceBytes text (byteLength before) offset).map List.length).getD 0 + 1 =
      (Text.locate text offset).column := by
  by_cases hcut : IsBoundary text offset
  · -- the offset comes behind a stretch of the line, whose characters are the columns
    obtain ⟨front, back, htext, rfl⟩ := hcut
    have hboth : before ++ (line ++ rest) = front ++ back := by
      rw [← List.append_assoc, ← h.text, htext]
    obtain ⟨left, rfl, hrest⟩ := exists_mid_of_byteLength_le hboth hstart
    have hleft : '\n' ∉ left := by
      simp only [byteLength_append, Nat.add_le_add_iff_left] at hstop
      obtain ⟨right, hline, -⟩ := exists_mid_of_byteLength_le hrest.symm hstop
      have hinside := h.inside
      rw [hline, List.mem_append, not_or] at hinside
      exact hinside.1
    have hslice : sliceBytes text (byteLength before) (byteLength (before ++ left)) = some left :=
      sliceBytes_eq_some_iff.mpr ⟨before, back, htext, rfl, rfl⟩
    have hcolumn : (Location.origin.advanceAll before).column = 1 := column_of_line_start h.start
    rw [hslice, htext, locate_append, Location.advanceAll_append,
      Location.advanceAll_of_notMem _ hleft, hcolumn]
    simp [Nat.add_comm]
  · -- inside a character there is nothing to cut out, and the location falls back to column one
    have hle : offset ≤ byteLength text := by
      rw [h.text]
      simp only [byteLength_append] at hstop ⊢
      omega
    have hnone : sliceBytes text (byteLength before) offset = none := by
      rw [Option.eq_none_iff_forall_ne_some]
      intro mid hslice
      obtain ⟨front, back, htext, -, hend⟩ := sliceBytes_eq_some_iff.mp hslice
      exact hcut ⟨front ++ mid, back, htext, hend⟩
    obtain ⟨front, c, back, n, rfl, rfl, hpos, hinside⟩ :=
      (isBoundary_or_inside hle).resolve_left hcut
    rw [hnone, locate_inside _ _ _ hpos hinside]
    rfl

/-- The location behind a front part is on the line around its end, as many columns along as there
are characters on that line in front of it. -/
theorem exists_isLine_of_advanceAll {front : List Char} {w : ℕ}
    (h : Location.origin.advanceAll front = ⟨i + 1, w + 1⟩) (back : List Char) :
    ∃ before left right rest, IsLine (front ++ back) i before (left ++ right) rest ∧
      left.length = w := by
  obtain ⟨before, left, right, rest, hline, rfl, -⟩ := exists_isLine front back
  have hleft : '\n' ∉ left := fun hmem => hline.inside (List.mem_append_left right hmem)
  have hcolumn : (Location.origin.advanceAll before).column = 1 := column_of_line_start hline.start
  have hnumber : (before ++ left).count '\n' = i := by
    have hcount := Location.advanceAll_line Location.origin (before ++ left)
    rw [h, Location.origin] at hcount
    simp only at hcount
    omega
  rw [Location.advanceAll_append, Location.advanceAll_of_notMem _ hleft, hcolumn] at h
  have hlength := congrArg Location.column h
  simp only at hlength
  exact ⟨before, left, right, rest, hnumber ▸ hline, by omega⟩

theorem offsetOf?_of_isLine (h : IsLine text i before line rest) (w : ℕ) :
    Text.offsetOf? text ⟨i + 1, w + 1⟩ =
      if w ≤ line.length then some (byteLength (before ++ line.take w)) else none := by
  split
  next hle =>
    have htake : '\n' ∉ line.take w := fun hmem => h.inside (List.mem_of_mem_take hmem)
    have hcolumn : (Location.origin.advanceAll before).column = 1 := column_of_line_start h.start
    have hnumber : (Location.origin.advanceAll before).line = i + 1 := by
      rw [Location.advanceAll_line, h.number, Location.origin, Nat.add_comm]
    refine offsetOf?_eq_some_iff.mpr ⟨before ++ line.take w, line.drop w ++ rest, ?_, ?_, rfl⟩
    · rw [h.text, List.append_assoc, List.append_assoc, ← List.append_assoc (line.take w),
        List.take_append_drop]
    · rw [Location.advanceAll_append, Location.advanceAll_of_notMem _ htake, hcolumn, hnumber,
        List.length_take, min_eq_left hle, Nat.add_comm 1]
  next hlt =>
    rw [Option.eq_none_iff_forall_ne_some]
    intro found hfound
    obtain ⟨front, back, rfl, haim, -⟩ := offsetOf?_eq_some_iff.mp hfound
    obtain ⟨before', left, right, rest', hline, hlength⟩ := exists_isLine_of_advanceAll haim back
    have hsame := (isLine_unique h hline).2
    rw [← hsame, List.length_append, hlength] at hlt
    exact hlt (Nat.le_add_right w right.length)

theorem offsetOf?_of_no_line (h : (Text.lineStarts text)[i]? = none) (w : ℕ) :
    Text.offsetOf? text ⟨i + 1, w + 1⟩ = none := by
  rw [Option.eq_none_iff_forall_ne_some]
  intro found hfound
  obtain ⟨front, back, rfl, haim, -⟩ := offsetOf?_eq_some_iff.mp hfound
  obtain ⟨before, left, right, rest, hline, -⟩ := exists_isLine_of_advanceAll haim back
  rw [hline.getElem?_lineStarts] at h
  simp at h

end

section

variable {text before line rest : List Char} {i : ℕ} (hsize : byteLength text + 1 < limit)

include hsize

theorem lineStarts_run : lineStarts text = .ok (Text.lineStarts text) := by
  have hstarts : startsFrom 0 text = .ok (Text.startsFrom 0 text) := startsFrom_run (by omega)
  simp [lineStarts, hstarts, Text.lineStarts]

theorem lineEnd_run (h : IsLine text i before line rest) :
    lineEnd text i = .ok (byteLength (before ++ line)) := by
  have hi := lt_of_isLine h
  have hlength := lineStarts_length_le text
  have hnext := h.getElem?_lineStarts_succ
  simp only [lineEnd, lineStarts_run hsize, ok_bind, add_run (by omega : i + 1 < limit), hnext]
  by_cases hrest : rest = []
  · simp [hrest, h.text]
  · simp [hrest, sub_run]

theorem locate_run (offset : ℕ) : locate text offset = .ok (Text.locate text offset) := by
  obtain ⟨i, before, line, rest, hline, hnumber, hstart, hstop⟩ :=
    exists_isLine_of_locate text offset
  have hi := lt_of_isLine hline
  have hlength := lineStarts_length_le text
  have hcolumn := columns_eq hline hstart hstop
  have hcolumns : ((sliceBytes text (byteLength before) (min offset (byteLength text))).map
      List.length).getD 0 ≤ byteLength text := by
    cases hslice : sliceBytes text (byteLength before) (min offset (byteLength text)) with
    | none => simp
    | some mid =>
      obtain ⟨front, back, rfl, -, -⟩ := sliceBytes_eq_some_iff.mp hslice
      have hmid := length_le_byteLength mid
      simp only [Option.map_some, Option.getD_some, byteLength_append]
      omega
  rw [locate_min] at hcolumn
  simp only [locate, lineStarts_run hsize, countUpTo_lineStarts hline hstart hstop, ok_bind,
    Nat.add_sub_cancel, entry_run hline.getElem?_lineStarts, add_run (by omega : i + 1 < limit),
    add_run (lt_of_le_of_lt (Nat.add_le_add_right hcolumns 1) hsize)]
  rw [hcolumn, ← hnumber]

theorem offsetOf?_run (line column : ℕ) :
    offsetOf? text line column = .ok (Text.offsetOf? text ⟨line, column⟩) := by
  by_cases hzero : line = 0 ∨ column = 0
  · have hnone : Text.offsetOf? text ⟨line, column⟩ = none := by
      rw [Text.offsetOf?, if_pos (by simpa using hzero)]
    rw [offsetOf?, if_pos hzero, hnone]
  · push Not at hzero
    obtain ⟨i, rfl⟩ := Nat.exists_eq_succ_of_ne_zero hzero.1
    obtain ⟨w, rfl⟩ := Nat.exists_eq_succ_of_ne_zero hzero.2
    have hback : ∀ n : ℕ, sub n.succ 1 = .ok n := fun n => sub_run (Nat.le_add_left 1 n)
    simp only [offsetOf?, Nat.succ_ne_zero, or_self, if_false, lineStarts_run hsize, ok_bind, hback]
    cases hstart : (Text.lineStarts text)[i]? with
    | none =>
      simp [offsetOf?_of_no_line hstart w]
    | some start =>
      obtain ⟨before, line, rest, hline⟩ :=
        exists_isLine_of_lt (List.getElem?_eq_some_iff.mp hstart).1
      obtain rfl : byteLength before = start := by
        rw [hline.getElem?_lineStarts] at hstart
        exact Option.some.inj hstart
      have hcut : cut text (byteLength before) (byteLength (before ++ line)) = .ok line := by
        rw [hline.text, cut_run]
      have hfound := offsetOf?_of_isLine hline w
      simp only [lineEnd_run hsize hline, hcut, ok_bind, hfound]
      -- a column on the line, one behind its end, and one further behind
      by_cases hlt : w < line.length
      · have htake : byteLength (line.take w) ≤ byteLength line := by
          have hsplit := byteLength_append (line.take w) (line.drop w)
          rw [List.take_append_drop] at hsplit
          omega
        have hroom : byteLength before + byteLength (line.take w) < limit := by
          have htext := congrArg byteLength hline.text
          simp only [byteLength_append] at htext
          omega
        simp [hlt, hlt.le, add_run hroom]
      · by_cases heq : line.length = w
        · subst heq
          simp
        · have hlong : ¬w ≤ line.length := by omega
          simp [hlt, heq, hlong]

end

/-! ### Spans -/

def span? (text : List Char) (lo hi : ℕ) : Option Syntax.Span := do
  let start ← sub? lo 1
  let stop ← sub? hi 1
  if start ≤ stop ∧ stop ≤ byteLength text then some ⟨start, stop⟩ else none

def rangeOf? (text : List Char) (lo hi : ℕ) : Run (Option Text.Range) :=
  match span? text lo hi with
  | none => .ok none
  | some span => do
    let start ← locate text span.start
    let stop ← locate text span.stop
    .ok (some ⟨start, stop⟩)

def textOf? (text : List Char) (lo hi : ℕ) : Option String :=
  (span? text lo hi).bind fun span =>
    (sliceBytes text span.start span.stop).map String.ofList

section

variable (file : Source.File) (lo hi : ℕ)

theorem span?_eq : span? file.chars lo hi = file.span? lo hi := by
  have hzero : sub? 0 1 = none := rfl
  have hback : ∀ n, sub? (n + 1) 1 = some n := fun n => if_pos (Nat.le_add_left 1 n)
  cases lo with
  | zero => simp [span?, Source.File.span?, hzero]
  | succ start =>
    cases hi with
    | zero => simp [span?, Source.File.span?, hzero]
    | succ stop =>
      simp only [span?, Source.File.span?, hback, Option.bind_eq_bind, Option.bind_some]
      by_cases hfits : start ≤ stop ∧ stop ≤ byteLength file.chars
      · simp [hfits, Nat.not_lt_of_le hfits.1, Nat.not_lt_of_le hfits.2]
      · have hout : stop < start ∨ byteLength file.chars < stop := by omega
        simp [hfits, hout]

theorem contains_of_span? {span : Syntax.Span} (h : file.span? lo hi = some span) :
    file.contains span = true := by
  unfold Source.File.span? at h
  split at h
  · simp at h
  · obtain rfl := Option.some.inj h
    simp only [Source.File.contains, Bool.and_eq_true, decide_eq_true_eq]
    simp only [Bool.or_eq_true, decide_eq_true_eq, not_or] at *
    omega

theorem rangeOf?_run (hsize : byteLength file.chars + 1 < limit) :
    rangeOf? file.chars lo hi = .ok ((file.span? lo hi).bind file.rangeOf?) := by
  rw [rangeOf?, span?_eq]
  cases hspan : file.span? lo hi with
  | none => rfl
  | some span =>
    have hinside := contains_of_span? file lo hi hspan
    simp [locate_run hsize, Source.File.rangeOf?, hinside, Source.File.locationOf]

theorem textOf?_eq : textOf? file.chars lo hi = (file.span? lo hi).bind file.textOf? := by
  rw [textOf?, span?_eq]
  cases hspan : file.span? lo hi with
  | none => rfl
  | some span =>
    have hinside := contains_of_span? file lo hi hspan
    simp [Source.File.textOf?, hinside]

end

/-! ### Passes -/

open Lint (Fix Edit InvalidRange FixPass Diagnostic firstFixes stretch splice proposal)

def resolve (file : Source.File) (fix : Fix) : Run (Except InvalidRange Edit) := do
  let invalid : Except InvalidRange Edit := .error ⟨fix.title, file.name, fix.range⟩
  let start? ← offsetOf? file.chars fix.range.start.line fix.range.start.column
  match start? with
  | none => .ok invalid
  | some start => do
    let stop? ← offsetOf? file.chars fix.range.stop.line fix.range.stop.column
    match stop? with
    | none => .ok invalid
    | some stop =>
      if stop < start then .ok invalid else .ok (.ok ⟨start, stop, fix.newText.toList⟩)

def resolveAll (file : Source.File) : List Fix → Run (Except InvalidRange (List Edit))
  | [] => .ok (.ok [])
  | fix :: fixes => do
    let first ← resolve file fix
    match first with
    | .error err => .ok (.error err)
    | .ok edit => do
      let more ← resolveAll file fixes
      .ok (more.map (edit :: ·))

/-- The state of the loop over edits. -/
structure Scan where
  /-- Where the text that is still to be copied starts. -/
  cursor : ℕ := 0
  output : List Char := []
  applied : ℕ := 0
  skipped : ℕ := 0
deriving DecidableEq, Repr

namespace Scan

/-- Leaves an edit out, or copies the text in front of it and puts its own behind that. -/
def step (text : List Char) (s : Scan) (e : Edit) : Run Scan :=
  if e.start < s.cursor then do
    let skipped ← add s.skipped 1
    .ok { s with skipped := skipped }
  else do
    let kept ← cut text s.cursor e.start
    let applied ← add s.applied 1
    .ok { s with cursor := e.stop, output := s.output ++ kept ++ e.text, applied := applied }

def run (text : List Char) (s : Scan) (edits : List Edit) : Run Scan := edits.foldlM (step text) s

/-- The loop can apply the edit: it comes at or behind the cursor, and all three offsets cut the
text. -/
structure Reaches (text : List Char) (s : Scan) (e : Edit) : Prop where
  cursor : IsBoundary text s.cursor
  start : IsBoundary text e.start
  stop : IsBoundary text e.stop
  cursor_le : s.cursor ≤ e.start
  start_le : e.start ≤ e.stop
  stop_le : e.stop ≤ byteLength text

end Scan

def applyFixes (file : Source.File) (diagnostics : List Diagnostic) :
    Run (Except InvalidRange FixPass) := do
  let resolved ← resolveAll file (firstFixes diagnostics)
  match resolved with
  | .error err => .ok (.error err)
  | .ok edits => do
    let s ← Scan.run file.chars {} (Edit.sort edits)
    let rest ← cut file.chars s.cursor (byteLength file.chars)
    .ok (.ok ⟨String.ofList (s.output ++ rest), s.applied, s.skipped⟩)

theorem cut_stretch {text : List Char} {start stop : ℕ} (hstart : IsBoundary text start)
    (hstop : IsBoundary text stop) (hle : start ≤ stop) :
    cut text start stop = .ok (stretch text start stop) := by
  obtain ⟨front, mid, back, rfl, rfl, rfl⟩ := hstart.exists_between hstop hle
  rw [cut_run, Lint.stretch_append]

namespace Scan

variable {text : List Char} {s : Scan} {e : Edit} {edits : List Edit}

def skip (s : Scan) : Scan := { s with skipped := s.skipped + 1 }

def take (text : List Char) (s : Scan) (e : Edit) : Scan :=
  ⟨e.stop, s.output ++ stretch text s.cursor e.start ++ e.text, s.applied + 1, s.skipped⟩

theorem step_of_lt (h : e.start < s.cursor) (hroom : s.skipped + 1 < limit) :
    s.step text e = .ok s.skip := by
  rw [step, if_pos h, add_run hroom]
  rfl

theorem step_of_reaches (h : s.Reaches text e) (hroom : s.applied + 1 < limit) :
    s.step text e = .ok (s.take text e) := by
  have hfree : ¬e.start < s.cursor := Nat.not_lt_of_le h.cursor_le
  rw [step, if_neg hfree, cut_stretch h.cursor h.start h.cursor_le, add_run hroom]
  rfl

theorem reaches_of_fits (hcursor : IsBoundary text s.cursor) (he : e.Fits text)
    (hfree : ¬e.start < s.cursor) : s.Reaches text e :=
  ⟨hcursor, he.start, he.stop, Nat.le_of_not_lt hfree, he.le, he.stop.le_byteLength⟩

/-- What the loop has done on the way from `s` to `s'`: the edits that do not start in front of the
cursor are applied, and the cursor is between two characters. -/
structure Passes (text : List Char) (s : Scan) (edits : List Edit) (s' : Scan) : Prop where
  cursor : IsBoundary text s'.cursor
  applied : s'.applied = s.applied + (Edit.select s.cursor edits).length
  count : s'.applied + s'.skipped = s.applied + s.skipped + edits.length
  output : s'.output ++ stretch text s'.cursor (byteLength text) =
    s.output ++ splice text s.cursor (Edit.select s.cursor edits)

theorem Passes.skip {s' : Scan} (hbusy : e.start < s.cursor) (h : s.skip.Passes text edits s') :
    s.Passes text (e :: edits) s' where
  cursor := h.cursor
  applied := by
    rw [h.applied, Edit.select, if_pos hbusy]
    rfl
  count := by
    have hskip : s.skip.applied + s.skip.skipped = s.applied + s.skipped + 1 := rfl
    rw [h.count, hskip, List.length_cons]
    omega
  output := by
    rw [h.output, Edit.select, if_pos hbusy]
    rfl

theorem Passes.take {s' : Scan} (hfree : ¬e.start < s.cursor)
    (h : (s.take text e).Passes text edits s') : s.Passes text (e :: edits) s' where
  cursor := h.cursor
  applied := by
    have htake : (s.take text e).applied = s.applied + 1 := rfl
    rw [h.applied, htake, Edit.select, if_neg hfree, List.length_cons, Nat.add_assoc,
      Nat.add_comm 1]
    rfl
  count := by
    have htake : (s.take text e).applied + (s.take text e).skipped =
        s.applied + 1 + s.skipped := rfl
    rw [h.count, htake, List.length_cons]
    omega
  output := by
    have htake : (s.take text e).output =
        s.output ++ (stretch text s.cursor e.start ++ e.text) := List.append_assoc _ _ _
    rw [h.output, htake, Edit.select, if_neg hfree, splice, List.append_assoc]
    rfl

theorem exists_run (hcursor : IsBoundary text s.cursor) (hfits : ∀ e ∈ edits, e.Fits text)
    (hroom : s.applied + s.skipped + edits.length < limit) :
    ∃ s', s.run text edits = .ok s' ∧ s.Passes text edits s' := by
  -- on the way the cursor stays between two characters: it moves to the ends of edits that fit
  induction edits generalizing s with
  | nil => exact ⟨s, rfl, hcursor, rfl, rfl, rfl⟩
  | cons e edits ih =>
    obtain ⟨he, hedits⟩ := List.forall_mem_cons.mp hfits
    rw [List.length_cons] at hroom
    by_cases hbusy : e.start < s.cursor
    · have hstep : s.step text e = .ok s.skip := step_of_lt hbusy (by omega)
      have hnext : s.skip.applied + s.skip.skipped + edits.length < limit := by
        have hskip : s.skip.applied + s.skip.skipped = s.applied + s.skipped + 1 := rfl
        omega
      obtain ⟨s', hrun, hpasses⟩ := ih (s := s.skip) hcursor hedits hnext
      refine ⟨s', ?_, hpasses.skip hbusy⟩
      rw [run, List.foldlM_cons, hstep]
      exact hrun
    · have hstep := step_of_reaches (reaches_of_fits hcursor he hbusy) (by omega)
      have hnext : (s.take text e).applied + (s.take text e).skipped + edits.length < limit := by
        have htake : (s.take text e).applied + (s.take text e).skipped =
            s.applied + 1 + s.skipped := rfl
        omega
      obtain ⟨s', hrun, hpasses⟩ := ih (s := s.take text e) he.stop hedits hnext
      refine ⟨s', ?_, hpasses.take hbusy⟩
      rw [run, List.foldlM_cons, hstep]
      exact hrun

/-- Whatever edit the loop comes to, it takes it without a step that fails, and applies it only if
it can. -/
theorem exists_step {front back : List Edit} (hcursor : IsBoundary text s.cursor)
    (hfits : ∀ e' ∈ front ++ e :: back, e'.Fits text)
    (hroom : s.applied + s.skipped + (front ++ e :: back).length < limit) :
    ∃ s' s'', s.run text front = .ok s' ∧ s'.step text e = .ok s'' ∧
      (s''.applied ≠ s'.applied → s'.Reaches text e) := by
  simp only [List.length_append, List.length_cons] at hroom
  have he : e.Fits text := hfits e (by simp)
  have hfront : ∀ f ∈ front, f.Fits text := fun f hf => hfits f (List.mem_append_left _ hf)
  obtain ⟨s', hrun, hpasses⟩ := exists_run hcursor hfront (by omega)
  have hcount := hpasses.count
  by_cases hbusy : e.start < s'.cursor
  · refine ⟨s', s'.skip, hrun, step_of_lt hbusy (by omega), fun hne => absurd rfl hne⟩
  · have hreaches := reaches_of_fits hpasses.cursor he hbusy
    exact ⟨s', s'.take text e, hrun, step_of_reaches hreaches (by omega), fun _ => hreaches⟩

end Scan

/-- The edits that the loop goes over fit the text, and there are no more of them than findings. -/
theorem sort_fits {file : Source.File} {diagnostics : List Diagnostic} {edits : List Edit}
    (h : Lint.resolveAll file (firstFixes diagnostics) = .ok edits) :
    (∀ e ∈ Edit.sort edits, e.Fits file.chars) ∧
      (Edit.sort edits).length ≤ diagnostics.length := by
  have hresolves := Lint.resolveAll_eq_ok_iff.mp h
  have hsorted := Edit.sort_perm edits
  constructor
  · exact fun e he => Lint.forall_fits hresolves e (hsorted.mem_iff.mp he)
  · rw [hsorted.length_eq, ← hresolves.length_eq]
    exact List.length_filterMap_le _ _

section

variable {file : Source.File} (hsize : byteLength file.chars + 1 < limit)

include hsize

theorem resolve_run (fix : Fix) : resolve file fix = .ok (Lint.resolve file fix) := by
  obtain ⟨title, newText, ⟨⟨line, column⟩, ⟨endLine, endColumn⟩⟩⟩ := fix
  simp only [resolve, offsetOf?_run hsize, ok_bind, Lint.resolve, Source.File.offsetOf?]
  cases Text.offsetOf? file.chars ⟨line, column⟩ with
  | none => rfl
  | some start =>
    cases Text.offsetOf? file.chars ⟨endLine, endColumn⟩ with
    | none => rfl
    | some stop =>
      by_cases hle : start ≤ stop
      · simp [hle, Nat.not_lt_of_le hle]
      · simp [hle, Nat.lt_of_not_le hle]

theorem resolveAll_run (fixes : List Fix) :
    resolveAll file fixes = .ok (Lint.resolveAll file fixes) := by
  induction fixes with
  | nil => rfl
  | cons fix fixes ih =>
    simp only [resolveAll, resolve_run hsize, ok_bind, Lint.resolveAll, ih]
    cases Lint.resolve file fix with
    | error err => rfl
    | ok e => cases Lint.resolveAll file fixes <;> rfl

theorem applyFixes_run {diagnostics : List Diagnostic} (hcount : diagnostics.length < limit) :
    applyFixes file diagnostics = .ok (Lint.applyFixes file diagnostics) := by
  simp only [applyFixes, resolveAll_run hsize, ok_bind, Lint.applyFixes]
  cases hresolved : Lint.resolveAll file (firstFixes diagnostics) with
  | error err => rfl
  | ok edits =>
    obtain ⟨hfits, hlength⟩ := sort_fits hresolved
    obtain ⟨s, hrun, hpasses⟩ := Scan.exists_run (s := {}) (isBoundary_zero file.chars) hfits
      (by simpa using lt_of_le_of_lt hlength hcount)
    have hrest := cut_stretch hpasses.cursor (isBoundary_byteLength file.chars)
      hpasses.cursor.le_byteLength
    have happlied : s.applied = (Edit.select 0 (Edit.sort edits)).length := by
      simpa using hpasses.applied
    have hskipped : s.skipped = edits.length - (Edit.select 0 (Edit.sort edits)).length := by
      have htotal := hpasses.count
      rw [(Edit.sort_perm edits).length_eq] at htotal
      simp only at htotal
      omega
    have houtput : s.output ++ stretch file.chars s.cursor (byteLength file.chars) =
        splice file.chars 0 (Edit.select 0 (Edit.sort edits)) := by
      simpa using hpasses.output
    simp only [hrun, hrest, ok_bind, houtput, happlied, hskipped]

end

/-- No step fails, neither in the functions on offsets, locations and spans, whatever numbers come
in, nor in a pass over fixes: each of them gives what it gives over unbounded numbers. And whenever
the loop of a pass applies an edit, the cursor, the start and the end of the edit and the end of the
text come in this order and cut the text between two characters. The length of the text and the
number of findings have to be machine numbers themselves, with room for one more: whatever fits into
the memory of a machine is less than half as long. -/
theorem steps_succeed (file : Source.File) (hsize : byteLength file.chars + 1 < limit) :
    (∀ offset, locate file.chars offset = .ok (file.locationOf offset)) ∧
    (∀ line column,
      offsetOf? file.chars line column = .ok (file.offsetOf? ⟨line, column⟩)) ∧
    (∀ lo hi, span? file.chars lo hi = file.span? lo hi ∧
      rangeOf? file.chars lo hi = .ok ((file.span? lo hi).bind file.rangeOf?) ∧
      textOf? file.chars lo hi = (file.span? lo hi).bind file.textOf?) ∧
    ∀ diagnostics : List Diagnostic, diagnostics.length < limit →
      applyFixes file diagnostics = .ok (Lint.applyFixes file diagnostics) ∧
      ∀ edits, Lint.resolveAll file (firstFixes diagnostics) = .ok edits →
        ∀ front e back, Edit.sort edits = front ++ e :: back →
          ∃ s s', Scan.run file.chars {} front = .ok s ∧ s.step file.chars e = .ok s' ∧
            (s'.applied ≠ s.applied → s.Reaches file.chars e) := by
  refine ⟨locate_run hsize, offsetOf?_run hsize,
    fun lo hi => ⟨span?_eq file lo hi, rangeOf?_run file lo hi hsize, textOf?_eq file lo hi⟩, ?_⟩
  intro diagnostics hcount
  refine ⟨applyFixes_run hsize hcount, ?_⟩
  intro edits hedits front e back hsplit
  obtain ⟨hfits, hlength⟩ := sort_fits hedits
  rw [hsplit] at hfits hlength
  refine Scan.exists_step (s := {}) (isBoundary_zero file.chars) hfits ?_
  simpa using lt_of_le_of_lt hlength hcount

/-- A text with characters of two and three bytes, a carriage return and an empty line. -/
def wideFile : Source.File := Source.File.ofText "a.ts" "aé\r\n\n€b"

/-- A change at the end, one of the first line, and one inside that. -/
def wideChanges : List Diagnostic :=
  [proposal "!" ⟨3, 3⟩ ⟨3, 3⟩, proposal "x" ⟨1, 2⟩ ⟨1, 3⟩, proposal "y" ⟨1, 1⟩ ⟨1, 4⟩]

theorem wideFile_steps :
    byteLength wideFile.chars + 1 < limit ∧ wideChanges.length < limit ∧
    locate wideFile.chars (limit - 1) = .ok ⟨3, 3⟩ ∧ locate wideFile.chars 7 = .ok ⟨3, 1⟩ ∧
    offsetOf? wideFile.chars (limit - 1) 1 = .ok none ∧
    offsetOf? wideFile.chars 1 4 = .ok (some 4) ∧
    rangeOf? wideFile.chars 9 3 = .ok none ∧
    rangeOf? wideFile.chars 3 8 = .ok (some ⟨⟨1, 1⟩, ⟨3, 1⟩⟩) ∧
    textOf? wideFile.chars 3 8 = none ∧
    applyFixes wideFile wideChanges = .ok (.ok ⟨"y\n\n€b!", 2, 1⟩) ∧
    ∃ s s', Scan.run wideFile.chars {} [⟨0, 4, ['y']⟩, ⟨1, 3, ['x']⟩] = .ok s ∧
      s.step wideFile.chars ⟨10, 10, ['!']⟩ = .ok s' ∧
      (s'.applied ≠ s.applied → s.Reaches wideFile.chars ⟨10, 10, ['!']⟩) := by
  have hsize : byteLength wideFile.chars + 1 < limit := by decide +kernel
  have hcount : wideChanges.length < limit := by decide
  obtain ⟨hlocate, hoffset, hspan, hpass⟩ := steps_succeed wideFile hsize
  obtain ⟨happly, hsteps⟩ := hpass wideChanges hcount
  refine ⟨hsize, hcount, ?_, ?_, ?_, ?_, ?_, ?_, ?_, ?_, ?_⟩
  · rw [hlocate]
    decide +kernel
  · rw [hlocate]
    decide +kernel
  · rw [hoffset]
    decide +kernel
  · rw [hoffset]
    decide +kernel
  · rw [(hspan 9 3).2.1]
    decide +kernel
  · rw [(hspan 3 8).2.1]
    decide +kernel
  · rw [(hspan 3 8).2.2]
    decide +kernel
  · rw [happly]
    decide +kernel
  · exact hsteps [⟨10, 10, ['!']⟩, ⟨1, 3, ['x']⟩, ⟨0, 4, ['y']⟩] (by decide +kernel) _ _ []
      (by decide)

end Machine
end CastLint
