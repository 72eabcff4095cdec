import CastLint.Proofs.Boundaries
import CastLint.Text.Location
import Mathlib.Data.List.Induction
import Mathlib.Data.Prod.Lex
import Mathlib.Order.Hom.Basic

/-! Locations and byte offsets are two names for the places of a text. Reading a text character by
character moves its location strictly forward, so the location of a place tells the place, and the
search for a location finds the offset that it came from. -/

namespace CastLint
namespace Text

namespace Location

def origin : Location := ⟨1, 1⟩

def advance (l : Location) (c : Char) : Location :=
  if c = '\n' then ⟨l.line + 1, 1⟩ else ⟨l.line, l.column + 1⟩

def advanceAll (l : Location) (cs : List Char) : Location := cs.foldl advance l

/-- A location as a pair that is compared by its line first. -/
def key (l : Location) : ℕ ×ₗ ℕ := toLex (l.line, l.column)

def ofKey (k : ℕ ×ₗ ℕ) : Location := ⟨(ofLex k).1, (ofLex k).2⟩

@[simp] theorem key_ofKey (k : ℕ ×ₗ ℕ) : (ofKey k).key = k := rfl

@[simp] theorem ofKey_key (l : Location) : ofKey l.key = l := rfl

@[simp] theorem advanceAll_nil (l : Location) : l.advanceAll [] = l := rfl

@[simp] theorem advanceAll_cons (l : Location) (c : Char) (cs : List Char) :
    l.advanceAll (c :: cs) = (l.advance c).advanceAll cs := rfl

@[simp] theorem advanceAll_append (l : Location) (xs ys : List Char) :
    l.advanceAll (xs ++ ys) = (l.advanceAll xs).advanceAll ys := List.foldl_append

theorem key_lt_iff {l m : Location} :
    l.key < m.key ↔ l.line < m.line ∨ l.line = m.line ∧ l.column < m.column := by
  simp [key, Prod.Lex.toLex_lt_toLex]

theorem key_lt_advance (l : Location) (c : Char) : l.key < (l.advance c).key := by
  rw [key_lt_iff, advance]
  split <;> simp

theorem key_le_advanceAll (l : Location) (cs : List Char) : l.key ≤ (l.advanceAll cs).key := by
  induction cs generalizing l with
  | nil => exact le_rfl
  | cons c cs ih => exact (key_lt_advance l c).le.trans (ih (l.advance c))

theorem key_lt_advanceAll (l : Location) {cs : List Char} (h : cs ≠ []) :
    l.key < (l.advanceAll cs).key := by
  cases cs with
  | nil => exact absurd rfl h
  | cons c cs => exact (key_lt_advance l c).trans_le (key_le_advanceAll (l.advance c) cs)

theorem advanceAll_eq_self {l : Location} {cs : List Char} (h : l.advanceAll cs = l) : cs = [] := by
  by_contra hne
  have hlt := key_lt_advanceAll l hne
  rw [h] at hlt
  exact lt_irrefl _ hlt

theorem line_le_advanceAll (l : Location) (cs : List Char) : l.line ≤ (l.advanceAll cs).line := by
  have hle := key_le_advanceAll l cs
  rw [← not_lt, key_lt_iff] at hle
  omega

theorem column_pos_advanceAll {l : Location} (h : 0 < l.column) (cs : List Char) :
    0 < (l.advanceAll cs).column := by
  induction cs generalizing l with
  | nil => exact h
  | cons c cs ih =>
    apply ih
    unfold advance
    split <;> simp

theorem advanceAll_of_notMem (l : Location) {cs : List Char} (h : '\n' ∉ cs) :
    l.advanceAll cs = ⟨l.line, l.column + cs.length⟩ := by
  induction cs generalizing l with
  | nil => simp
  | cons c cs ih =>
    have hc : c ≠ '\n' := fun hc => h (by simp [hc])
    rw [advanceAll_cons, ih _ (fun hmem => h (by simp [hmem])), advance, if_neg hc]
    simp only [List.length_cons, mk.injEq, true_and]
    omega

theorem advanceAll_line (l : Location) (cs : List Char) :
    (l.advanceAll cs).line = l.line + cs.count '\n' := by
  induction cs generalizing l with
  | nil => rfl
  | cons c cs ih =>
    rw [advanceAll_cons, ih, advance, List.count_cons]
    by_cases hc : c = '\n'
    · simp only [hc, if_true, beq_self_eq_true]
      omega
    · simp [hc]

theorem advanceAll_column_of_lineFeed (l : Location) (cs : List Char) :
    (l.advanceAll (cs ++ ['\n'])).column = 1 := by
  simp [advance]

end Location

open Location

/-- The steps of a search whose aim lies `lines` and `columns` further than `l`: columns count from
`l` itself on its own line, and from the first column on a later one. -/
def LiesAhead (l aim : Location) (lines columns : ℕ) : Prop :=
  aim.line = l.line + lines ∧ aim.column = (if lines = 0 then l.column else 1) + columns

theorem LiesAhead.eq_of_zero {l aim : Location} (h : LiesAhead l aim 0 0) : aim = l := by
  obtain ⟨hline, hcolumn⟩ := h
  cases aim
  cases l
  simp_all

theorem LiesAhead.ne {l aim : Location} {lines columns : ℕ} (h : LiesAhead l aim lines columns)
    (hsteps : lines ≠ 0 ∨ columns ≠ 0) : aim ≠ l := by
  rintro rfl
  obtain ⟨hline, hcolumn⟩ := h
  have hlines : lines = 0 := by omega
  rw [if_pos hlines] at hcolumn
  omega

/-- A character on the line of the aim brings it one column nearer. -/
theorem LiesAhead.advance_column {l aim : Location} {columns : ℕ} {c : Char}
    (h : LiesAhead l aim 0 (columns + 1)) (hc : c ≠ '\n') :
    LiesAhead (l.advance c) aim 0 columns := by
  simp only [LiesAhead, if_true] at h ⊢
  rw [advance, if_neg hc]
  simp only
  omega

/-- A character on a line in front of the aim brings it nearer only if it ends the line. -/
theorem LiesAhead.advance_line {l aim : Location} {lines columns : ℕ} {c : Char}
    (h : LiesAhead l aim (lines + 1) columns) :
    LiesAhead (l.advance c) aim (if c = '\n' then lines else lines + 1) columns := by
  simp only [LiesAhead, Nat.add_one_ne_zero, if_false] at h ⊢
  by_cases hc : c = '\n'
  · simp only [hc, advance, if_true, ite_self]
    omega
  · simp only [hc, advance, if_false, Nat.add_one_ne_zero]
    omega

theorem exists_front_cons_iff {l aim : Location} {offset found : ℕ} {c : Char} {cs : List Char}
    (hne : aim ≠ l) :
    (∃ front back, cs = front ++ back ∧ (l.advance c).advanceAll front = aim ∧
        offset + c.utf8Size + byteLength front = found) ↔
      ∃ front back, c :: cs = front ++ back ∧ l.advanceAll front = aim ∧
        offset + byteLength front = found := by
  constructor
  · rintro ⟨front, back, rfl, haim, rfl⟩
    exact ⟨c :: front, back, rfl, haim, by simp [Nat.add_assoc]⟩
  · rintro ⟨front, back, hcs, haim, rfl⟩
    cases front with
    | nil => exact absurd haim.symm hne
    | cons d front =>
      obtain ⟨rfl, rfl⟩ := List.cons.inj hcs
      exact ⟨front, back, rfl, haim, by simp [Nat.add_assoc]⟩

/-- The search finds the offset of the place that has the location it looks for, and finds nothing
only if there is no such place. -/
theorem offsetFrom?_eq_some_iff (offset : ℕ) {l aim : Location} {lines columns found : ℕ}
    {cs : List Char} (h : LiesAhead l aim lines columns) :
    offsetFrom? offset lines columns cs = some found ↔
      ∃ front back, cs = front ++ back ∧ l.advanceAll front = aim ∧
        offset + byteLength front = found := by
  fun_induction offsetFrom? offset lines columns cs generalizing l with
  | case1 cs offset =>
    have haim := h.eq_of_zero
    constructor
    · intro heq
      exact ⟨[], cs, rfl, haim.symm, by simpa using heq⟩
    · rintro ⟨front, back, -, hfront, rfl⟩
      have hnil := advanceAll_eq_self (hfront.trans haim)
      simp [hnil]
  | case2 offset lines columns hsteps =>
    have hne : aim ≠ l := by
      apply h.ne
      by_contra hzero
      push Not at hzero
      exact hsteps hzero.1 hzero.2
    constructor
    · simp
    · rintro ⟨front, back, hcs, hfront, -⟩
      have hnil : front = [] := by simpa using (List.append_eq_nil_iff.mp hcs.symm).1
      rw [hnil] at hfront
      exact absurd hfront.symm hne
  | case3 offset columns cs =>
    constructor
    · simp
    · rintro ⟨front, back, hcs, hfront, -⟩
      cases front with
      | nil => exact absurd hfront.symm (h.ne (by simp))
      | cons c front =>
        -- a line feed in front of the aim would put the aim on a later line
        obtain ⟨rfl, -⟩ := List.cons.inj hcs
        have hline := line_le_advanceAll (l.advance '\n') front
        rw [← advanceAll_cons, hfront, h.1, advance, if_pos rfl] at hline
        simp only [Nat.add_zero] at hline
        omega
  | case4 offset columns c cs hc ih =>
    rw [ih (h.advance_column hc)]
    exact exists_front_cons_iff (h.ne (by simp))
  | case5 offset lines columns c cs ih =>
    rw [ih h.advance_line]
    exact exists_front_cons_iff (h.ne (by simp))

theorem liesAhead_origin {aim : Location} (hline : aim.line ≠ 0) (hcolumn : aim.column ≠ 0) :
    LiesAhead origin aim (aim.line - 1) (aim.column - 1) := by
  simp only [LiesAhead, origin, ite_self]
  omega

theorem offsetOf?_eq_some_iff {cs : List Char} {l : Location} {offset : ℕ} :
    offsetOf? cs l = some offset ↔
      ∃ front back, cs = front ++ back ∧ origin.advanceAll front = l ∧
        byteLength front = offset := by
  unfold offsetOf?
  split
  · rename_i hzero
    simp only [reduceCtorEq, false_iff]
    rintro ⟨front, back, -, rfl, -⟩
    have hline : 1 ≤ (origin.advanceAll front).line := line_le_advanceAll origin front
    have hcolumn := column_pos_advanceAll (l := origin) Nat.one_pos front
    simp only [Bool.or_eq_true, decide_eq_true_eq] at hzero
    omega
  · rename_i hpos
    simp only [Bool.or_eq_true, decide_eq_true_eq, not_or] at hpos
    simpa using offsetFrom?_eq_some_iff 0 (liesAhead_origin hpos.1 hpos.2)

@[simp] theorem locateFrom_zero (l : Location) (cs : List Char) : locateFrom l cs 0 = l := by
  simp [locateFrom]

@[simp] theorem locateFrom_nil (l : Location) (n : ℕ) : locateFrom l [] n = l := by
  cases n <;> simp [locateFrom]

theorem locateFrom_cons_add (l : Location) (c : Char) (cs : List Char) (n : ℕ) :
    locateFrom l (c :: cs) (c.utf8Size + n) = locateFrom (l.advance c) cs n := by
  obtain ⟨m, hm⟩ : ∃ m, c.utf8Size + n = m + 1 :=
    ⟨c.utf8Size + n - 1, by have := c.utf8Size_pos; omega⟩
  have hfits : c.utf8Size ≤ m + 1 := by omega
  have hrest : m + 1 - c.utf8Size = n := by omega
  rw [hm, locateFrom, if_pos hfits, hrest, advance]

theorem locateFrom_append (l : Location) (front back : List Char) (n : ℕ) :
    locateFrom l (front ++ back) (byteLength front + n) = locateFrom (l.advanceAll front) back n := by
  induction front generalizing l with
  | nil => simp
  | cons c front ih =>
    rw [byteLength_cons, Nat.add_assoc, List.cons_append, locateFrom_cons_add, ih, advanceAll_cons]

theorem locate_eq_locateFrom (cs : List Char) (offset : ℕ) :
    locate cs offset = locateFrom origin cs offset := rfl

theorem locate_append (front back : List Char) :
    locate (front ++ back) (byteLength front) = origin.advanceAll front := by
  rw [locate_eq_locateFrom]
  simpa using locateFrom_append origin front back 0

theorem locate_past_end {cs : List Char} {offset : ℕ} (h : byteLength cs < offset) :
    locate cs offset = origin.advanceAll cs := by
  obtain ⟨n, rfl⟩ := Nat.exists_eq_add_of_lt h
  rw [locate_eq_locateFrom]
  simpa [Nat.add_assoc] using locateFrom_append origin cs [] (n + 1)

/-- An offset inside a character is taken for the start of its line. -/
theorem locate_inside (front back : List Char) (c : Char) {n : ℕ} (hpos : 0 < n)
    (hinside : n < c.utf8Size) :
    locate (front ++ c :: back) (byteLength front + n) = ⟨(origin.advanceAll front).line, 1⟩ := by
  obtain ⟨m, rfl⟩ : ∃ m, n = m + 1 := ⟨n - 1, by omega⟩
  have hwide : ¬c.utf8Size ≤ m + 1 := by omega
  rw [locate_eq_locateFrom, locateFrom_append, locateFrom, if_neg hwide]

theorem isBoundary_or_inside {cs : List Char} {offset : ℕ} (h : offset ≤ byteLength cs) :
    IsBoundary cs offset ∨ ∃ front c back n, cs = front ++ c :: back ∧
      offset = byteLength front + n ∧ 0 < n ∧ n < c.utf8Size := by
  induction cs generalizing offset with
  | nil =>
    have hzero : offset = 0 := by simpa using h
    exact Or.inl (hzero ▸ isBoundary_zero [])
  | cons c cs ih =>
    by_cases hzero : offset = 0
    · exact Or.inl (hzero ▸ isBoundary_zero _)
    by_cases hinside : offset < c.utf8Size
    · exact Or.inr ⟨[], c, cs, offset, rfl, by simp, by omega, hinside⟩
    · obtain ⟨rest, rfl⟩ := Nat.exists_eq_add_of_le (Nat.le_of_not_lt hinside)
      have hrest : rest ≤ byteLength cs := by simpa using h
      obtain ⟨front, back, rfl, rfl⟩ | ⟨front, d, back, n, rfl, rfl, hn, hd⟩ := ih hrest
      · exact Or.inl ⟨c :: front, back, rfl, rfl⟩
      · exact Or.inr ⟨c :: front, d, back, n, rfl, by simp [Nat.add_assoc], hn, hd⟩

/-- A line of the text starts at `start` and reaches as far as `offset`. -/
def IsLineStart (cs : List Char) (offset start : ℕ) : Prop :=
  ∃ before line rest, cs = before ++ line ++ rest ∧ (before = [] ∨ before.getLast? = some '\n') ∧
    '\n' ∉ line ∧ byteLength before = start ∧ start ≤ offset ∧
    offset ≤ byteLength (before ++ line)

theorem exists_last_line (cs : List Char) :
    ∃ before line, cs = before ++ line ∧ (before = [] ∨ before.getLast? = some '\n') ∧
      '\n' ∉ line := by
  induction cs using List.reverseRecOn with
  | nil => exact ⟨[], [], rfl, Or.inl rfl, by simp⟩
  | append_singleton cs c ih =>
    obtain ⟨before, line, rfl, hbefore, hline⟩ := ih
    by_cases hc : c = '\n'
    · subst hc
      exact ⟨before ++ line ++ ['\n'], [], by simp, Or.inr (by simp), by simp⟩
    · exact ⟨before, line ++ [c], by simp, hbefore, by simp [hline, Ne.symm hc]⟩

theorem column_of_line_start {before : List Char}
    (h : before = [] ∨ before.getLast? = some '\n') : (origin.advanceAll before).column = 1 := by
  obtain rfl | hlast := h
  · rfl
  · obtain ⟨init, rfl⟩ := List.getLast?_eq_some_iff.mp hlast
    exact advanceAll_column_of_lineFeed origin init

theorem offsetOf?_locate_inside {front back : List Char} {c : Char} {n : ℕ} (hpos : 0 < n)
    (hinside : n < c.utf8Size) :
    ∃ start, IsLineStart (front ++ c :: back) (byteLength front + n) start ∧
      offsetOf? (front ++ c :: back) (locate (front ++ c :: back) (byteLength front + n)) =
        some start := by
  obtain ⟨before, line, rfl, hbefore, hline⟩ := exists_last_line front
  have hc : c ≠ '\n' := by
    rintro rfl
    have hsize : ('\n' : Char).utf8Size = 1 := by decide
    omega
  refine ⟨byteLength before, ⟨before, line ++ [c], back, by simp, hbefore, ?_, rfl, ?_, ?_⟩, ?_⟩
  · simp [hline, Ne.symm hc]
  · simp only [byteLength_append]
    omega
  · simp only [byteLength_append, byteLength_cons, byteLength_nil]
    omega
  · rw [locate_inside _ _ _ hpos hinside, offsetOf?_eq_some_iff]
    refine ⟨before, line ++ c :: back, by simp, ?_, rfl⟩
    rw [advanceAll_append, advanceAll_of_notMem _ hline, ← column_of_line_start hbefore]

theorem offsetOf?_locate {cs : List Char} {offset : ℕ} (h : IsBoundary cs offset) :
    offsetOf? cs (locate cs offset) = some offset := by
  obtain ⟨front, back, rfl, rfl⟩ := h
  exact offsetOf?_eq_some_iff.mpr ⟨front, back, rfl, (locate_append front back).symm, rfl⟩

example : offsetOf? ['a', '\n', 'ç', 'x'] (locate ['a', '\n', 'ç', 'x'] 4) = some 4 ∧
    offsetOf? ['a', '\n', 'ç', 'x'] (locate ['a', '\n', 'ç', 'x'] 3) = some 2 := by decide

theorem locate_of_offsetOf? {cs : List Char} {l : Location} {offset : ℕ}
    (h : offsetOf? cs l = some offset) : IsBoundary cs offset ∧ locate cs offset = l := by
  obtain ⟨front, back, rfl, rfl, rfl⟩ := offsetOf?_eq_some_iff.mp h
  exact ⟨isBoundary_append front back, locate_append front back⟩

theorem locate_key_lt {cs : List Char} {a b : ℕ} (ha : IsBoundary cs a) (hb : IsBoundary cs b)
    (hlt : a < b) : (locate cs a).key < (locate cs b).key := by
  obtain ⟨front, mid, back, rfl, rfl, rfl⟩ := ha.exists_between hb hlt.le
  have hmid : mid ≠ [] := by
    rintro rfl
    simp at hlt
  rw [locate_append (front ++ mid) back, List.append_assoc, locate_append, advanceAll_append]
  exact key_lt_advanceAll _ hmid

theorem locate_key_le_iff {cs : List Char} {a b : ℕ} (ha : IsBoundary cs a)
    (hb : IsBoundary cs b) : (locate cs a).key ≤ (locate cs b).key ↔ a ≤ b := by
  constructor
  · intro hle
    by_contra hlt
    exact absurd hle (locate_key_lt hb ha (Nat.lt_of_not_le hlt)).not_ge
  · intro hle
    obtain hlt | rfl := Nat.lt_or_eq_of_le hle
    · exact (locate_key_lt ha hb hlt).le
    · exact le_rfl

/-- The byte offsets at which a text can be cut. -/
abbrev Boundary (cs : List Char) := {offset : ℕ // IsBoundary cs offset}

/-- The lines and columns that have an offset in a text. -/
abbrev Place (cs : List Char) := {k : ℕ ×ₗ ℕ // (offsetOf? cs (ofKey k)).isSome}

/-- The offsets of a text and its places in the order of reading. -/
def placeOf (cs : List Char) : Boundary cs ≃o Place cs where
  toFun o := ⟨(locate cs o.1).key, by simp [offsetOf?_locate o.2]⟩
  invFun p := ⟨(offsetOf? cs (ofKey p.1)).get p.2,
    (locate_of_offsetOf? (Option.some_get p.2).symm).1⟩
  left_inv o := by simp [offsetOf?_locate o.2]
  right_inv p := by
    have hp := (locate_of_offsetOf? (Option.some_get p.2).symm).2
    simp [hp]
  map_rel_iff' := fun {a b} => locate_key_le_iff a.2 b.2

/-- Locating is an isomorphism of orders from the cuts of a text to the lines and columns that
have an offset, and the search for a location is its inverse. An offset that is no cut still has a
location that is found: the end of the text behind it, and the start of the line inside a
character. -/
theorem locate_offsetOf?_orderIso (cs : List Char) :
    (∃ places : Boundary cs ≃o Place cs,
      (∀ o : Boundary cs, (places o).1 = (locate cs o.1).key) ∧
      ∀ p : Place cs, offsetOf? cs (ofKey p.1) = some (places.symm p).1) ∧
    (∀ offset, byteLength cs < offset →
      offsetOf? cs (locate cs offset) = some (byteLength cs)) ∧
    ∀ offset, offset ≤ byteLength cs → ¬IsBoundary cs offset →
      ∃ start, IsLineStart cs offset start ∧ offsetOf? cs (locate cs offset) = some start := by
  refine ⟨⟨placeOf cs, fun o => rfl, fun p => (Option.some_get p.2).symm⟩, ?_, ?_⟩
  · intro offset hpast
    rw [locate_past_end hpast]
    exact offsetOf?_eq_some_iff.mpr ⟨cs, [], by simp, rfl, rfl⟩
  · intro offset hle hno
    obtain hcut | ⟨front, c, back, n, rfl, rfl, hpos, hinside⟩ := isBoundary_or_inside hle
    · exact absurd hcut hno
    · exact offsetOf?_locate_inside hpos hinside

end Text
end CastLint
