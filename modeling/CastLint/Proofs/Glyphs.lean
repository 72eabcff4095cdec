import CastLint.Proofs.ParserSteps

/-! Texts that are written token by token. A text is a list of words and signs with spaces, line
feeds and remarks between them. As long as no two of its tokens run into one another, the reader
finds these tokens again, each of them at the place where it was written. -/

namespace CastLint

namespace Text

def areDisjoint (ranges others : List (Nat × Nat)) : Bool :=
  ranges.all fun r => others.all fun s => r.2 < s.1 || s.2 < r.1

theorem inRanges_of_areDisjoint {ranges others : List (Nat × Nat)} {n : Nat}
    (h : areDisjoint ranges others = true) (hn : inRanges ranges n = true) :
    inRanges others n = false := by
  obtain ⟨r, hr, hrn⟩ := List.any_eq_true.mp hn
  rw [inRanges, List.any_eq_false]
  intro s hs hsn
  have hrs := List.all_eq_true.mp (List.all_eq_true.mp h r hr) s hs
  simp only [Bool.and_eq_true, Bool.or_eq_true, decide_eq_true_eq] at hrn hsn hrs
  omega

end Text

namespace Syntax

theorem ne_of_isNameStart {c : Char} (h : isNameStart c = true) (d : Char)
    (hd : isNameStart d = false) : c ≠ d := by
  rintro rfl
  simp [hd] at h

theorem isNamePart_of_isNameStart {c : Char} (h : isNameStart c = true) : isNamePart c = true := by
  unfold isNameStart at h
  unfold isNamePart
  split
  · rw [if_pos ‹_›] at h
    simp only [Char.isAlphanum, Bool.or_eq_true] at h ⊢
    obtain (halpha | hdollar) | hunderscore := h
    · exact Or.inl (Or.inl (Or.inl halpha))
    · exact Or.inl (Or.inr hdollar)
    · exact Or.inr hunderscore
  · rw [if_neg ‹_›] at h
    simp [h]

theorem isBlank_of_isNameStart {c : Char} (h : isNameStart c = true) : Text.isBlank c = false := by
  by_cases hascii : c.toNat < 128
  · have hall : ∀ n : Fin 128, isNameStart (Char.ofNat n) = true →
        Text.isBlank (Char.ofNat n) = false := by decide
    simpa using hall ⟨c.toNat, hascii⟩ (by simpa using h)
  · have hletter : Text.isLetter c = true := by simpa [isNameStart, hascii] using h
    exact Text.inRanges_of_areDisjoint (by decide +kernel : Text.areDisjoint Text.letterRanges
      Text.blankRanges = true) hletter

theorem isSpace_of_isNameStart {c : Char} (h : isNameStart c = true) : isSpace c = false := by
  have hmark := ne_of_isNameStart h '\ufeff' (by decide +kernel)
  simp [isSpace, isBlank_of_isNameStart h, hmark]

theorem isLineBreak_of_isNameStart {c : Char} (h : isNameStart c = true) : isLineBreak c = false := by
  have hfeed := ne_of_isNameStart h '\n' (by decide)
  have hreturn := ne_of_isNameStart h '\r' (by decide)
  have hline := ne_of_isNameStart h '\u2028' (by decide +kernel)
  have hparagraph := ne_of_isNameStart h '\u2029' (by decide +kernel)
  simp [isLineBreak, hfeed, hreturn, hline, hparagraph]

theorem isDigit_of_isNameStart {c : Char} (h : isNameStart c = true) : c.isDigit = false := by
  by_cases hascii : c.toNat < 128
  · have hall : ∀ n : Fin 128, isNameStart (Char.ofNat n) = true →
        (Char.ofNat n).isDigit = false := by decide
    simpa using hall ⟨c.toNat, hascii⟩ (by simpa using h)
  · have hnine : c.toNat = c.val.toNat := rfl
    simp only [Char.isDigit, Bool.and_eq_false_iff, decide_eq_false_iff_not, UInt32.le_iff_toNat_le]
    right
    rw [← hnine]
    have : ('9' : Char).val.toNat = 57 := rfl
    omega

end Syntax

namespace Script

open Syntax

/-- A word that is spelled plainly. -/
structure Word where
  first : Char
  more : List Char
  first_isNameStart : isNameStart first = true
  more_isNamePart : more.all isNamePart = true

namespace Word

def chars (w : Word) : List Char := w.first :: w.more

def text (w : Word) : String := String.ofList w.chars

theorem isNamePart_of_mem (w : Word) {c : Char} (h : c ∈ w.chars) : isNamePart c = true := by
  obtain rfl | h := List.mem_cons.mp h
  · exact isNamePart_of_isNameStart w.first_isNameStart
  · exact List.all_eq_true.mp w.more_isNamePart c h

end Word

inductive Sign where
  | lparen | rparen | comma | semi | dot | equals
deriving DecidableEq

namespace Sign

def mark : Sign → Mark
  | lparen => .lparen
  | rparen => .rparen
  | comma => .comma
  | semi => .semi
  | dot => .dot
  | equals => .assign none

def char : Sign → Char
  | lparen => '('
  | rparen => ')'
  | comma => ','
  | semi => ';'
  | dot => '.'
  | equals => '='

end Sign

/-- A comment behind two slashes, up to the line feed that ends it. -/
structure Remark where
  text : List Char
  unbroken : text.all (!isLineBreak ·) = true

def Remark.chars (r : Remark) : List Char := '/' :: '/' :: (r.text ++ ['\n'])

inductive Glyph where
  | word (w : Word)
  | sign (s : Sign)
  | space
  | line
  | remark (r : Remark)

namespace Glyph

def chars : Glyph → List Char
  | word w => w.chars
  | sign s => [s.char]
  | space => [' ']
  | line => ['\n']
  | remark r => r.chars

/-- The glyph neither ends a line nor is a remark. -/
def isInline : Glyph → Bool
  | line | remark _ => false
  | _ => true

def isRemark : Glyph → Bool
  | remark _ => true
  | _ => false

/-- The glyph does not run into those behind it. A dot stands in front of a word, and an equals
sign in front of a space. -/
def fits : Glyph → List Glyph → Bool
  | word _, word _ :: _ => false
  | sign .dot, word _ :: _ => true
  | sign .dot, _ => false
  | sign .equals, space :: _ => true
  | sign .equals, _ => false
  | _, _ => true

end Glyph

def render (gs : List Glyph) : List Char := gs.flatMap Glyph.chars

@[simp] theorem render_nil : render [] = [] := rfl

@[simp] theorem render_cons (x : Glyph) (gs : List Glyph) :
    render (x :: gs) = x.chars ++ render gs := rfl

@[simp] theorem render_append (gs hs : List Glyph) : render (gs ++ hs) = render gs ++ render hs := by
  simp [render]

theorem head?_render_ne (gs : List Glyph) {c : Char} (hletter : isNameStart c = false)
    (hother : c ∉ ['(', ')', ',', ';', '.', '=', ' ', '\n', '/']) :
    (render gs).head? ≠ some c := by
  cases gs with
  | nil => simp
  | cons x gs =>
    intro hc
    cases x with
    | word w =>
      obtain rfl : w.first = c := by simpa [Glyph.chars, Word.chars] using hc
      exact absurd w.first_isNameStart (by simp [hletter])
    | sign s =>
      obtain rfl : s.char = c := by simpa [Glyph.chars] using hc
      cases s <;> exact hother (by decide)
    | space =>
      obtain rfl : ' ' = c := by simpa [Glyph.chars] using hc
      exact hother (by decide)
    | line =>
      obtain rfl : '\n' = c := by simpa [Glyph.chars] using hc
      exact hother (by decide)
    | remark r =>
      obtain rfl : '/' = c := by simpa [Glyph.chars, Remark.chars] using hc
      exact hother (by decide)

/-- Only remarks hold slashes. -/
theorem slash_notMem_render {gs : List Glyph} (h : gs.any Glyph.isRemark = false) :
    '/' ∉ render gs := by
  intro hslash
  obtain ⟨x, hmem, hx⟩ := List.mem_flatMap.mp hslash
  cases x with
  | word w =>
    have hpart := w.isNamePart_of_mem hx
    revert hpart
    decide
  | sign s => cases s <;> simp [Glyph.chars, Sign.char] at hx
  | space => simp [Glyph.chars] at hx
  | line => simp [Glyph.chars] at hx
  | remark r => exact List.any_eq_false.mp h _ hmem rfl

/-- No two tokens run into one another. -/
def Apart : List Glyph → Prop
  | [] => True
  | x :: gs => x.fits gs = true ∧ Apart gs

theorem Apart.of_append {gs hs : List Glyph} (h : Apart (gs ++ hs)) : Apart hs := by
  induction gs with
  | nil => exact h
  | cons x gs ih => exact ih h.2

/-! ### Finding the tokens again -/

/-- Where a text goes on: the span of the token in front, whether a line has ended since, and the
number of bytes in front. -/
structure Place where
  before : Span
  line : Bool
  offset : Nat

namespace Place

def origin : Place := ⟨⟨0, 0⟩, true, 0⟩

def pastToken (p : Place) (cs : List Char) : Place :=
  ⟨⟨p.offset, p.offset + Text.byteLength cs⟩, false, p.offset + Text.byteLength cs⟩

def past (p : Place) : Glyph → Place
  | .word w => p.pastToken w.chars
  | .sign s => p.pastToken [s.char]
  | .space => { p with offset := p.offset + 1 }
  | .line => { p with line := true, offset := p.offset + 1 }
  | .remark r => { p with line := true, offset := p.offset + Text.byteLength r.chars }

def after (p : Place) (gs : List Glyph) : Place := gs.foldl past p

@[simp] theorem after_nil (p : Place) : p.after [] = p := rfl

@[simp] theorem after_cons (p : Place) (x : Glyph) (gs : List Glyph) :
    p.after (x :: gs) = (p.past x).after gs := rfl

@[simp] theorem after_append (p : Place) (gs hs : List Glyph) :
    p.after (gs ++ hs) = (p.after gs).after hs := List.foldl_append

theorem past_offset (p : Place) (x : Glyph) :
    (p.past x).offset = p.offset + Text.byteLength x.chars := by
  cases x <;> rfl

theorem after_offset (p : Place) (gs : List Glyph) :
    (p.after gs).offset = p.offset + Text.byteLength (render gs) := by
  induction gs generalizing p with
  | nil => rfl
  | cons x gs ih => simp [ih, past_offset, Nat.add_assoc]

/-- Tokens come one behind the other. -/
theorem before_le_after {p : Place} (h : p.before.stop ≤ p.offset) (gs : List Glyph) :
    p.before.stop ≤ (p.after gs).before.stop := by
  induction gs generalizing p with
  | nil => exact Nat.le_refl _
  | cons x gs ih =>
    cases x with
    | word w =>
      have hrest := ih (p := p.pastToken w.chars) (Nat.le_refl _)
      exact (h.trans (Nat.le_add_right _ _)).trans hrest
    | sign s =>
      have hrest := ih (p := p.pastToken [s.char]) (Nat.le_refl _)
      exact (h.trans (Nat.le_add_right _ _)).trans hrest
    | space => exact ih (p := p.past .space) (h.trans (Nat.le_succ _))
    | line => exact ih (p := p.past .line) (h.trans (Nat.le_succ _))
    | remark r => exact ih (p := p.past (.remark r)) (h.trans (Nat.le_add_right _ _))

theorem offset_le_pastToken (p : Place) (cs : List Char) (gs : List Glyph) :
    p.offset ≤ ((p.pastToken cs).after gs).before.stop :=
  (Nat.le_add_right _ _).trans (before_le_after (p := p.pastToken cs) (Nat.le_refl _) gs)

/-- The token at a place, with the text behind it. -/
def tokenAt (p : Place) (token : Token) (cs : List Char) (gs : List Glyph) : Stand :=
  ⟨⟨token, ⟨p.offset, p.offset + Text.byteLength cs⟩, p.line,
    ⟨render gs, p.offset + Text.byteLength cs⟩, []⟩, p.before⟩

/-- The first token of the glyphs at a place. -/
def stand (p : Place) : List Glyph → Stand
  | [] => ⟨⟨.eof, ⟨p.offset, p.offset⟩, true, ⟨[], p.offset⟩, []⟩, p.before⟩
  | .space :: gs => (p.past .space).stand gs
  | .line :: gs => (p.past .line).stand gs
  | .remark r :: gs => (p.past (.remark r)).stand gs
  | .word w :: gs => p.tokenAt (.word w.text true) w.chars gs
  | .sign s :: gs => p.tokenAt (.mark s.mark) [s.char] gs

theorem stand_before (p : Place) (gs : List Glyph) : (p.stand gs).before = p.before := by
  induction gs generalizing p with
  | nil => rfl
  | cons x gs ih =>
    cases x with
    | space => exact ih _
    | line => exact ih _
    | remark r => exact ih _
    | _ => rfl

theorem stand_issues (p : Place) (gs : List Glyph) : (p.stand gs).lexeme.issues = [] := by
  induction gs generalizing p with
  | nil => rfl
  | cons x gs ih =>
    cases x with
    | space => exact ih _
    | line => exact ih _
    | remark r => exact ih _
    | _ => rfl

theorem offset_le_stand (p : Place) (gs : List Glyph) : p.offset ≤ (p.stand gs).span.start := by
  induction gs generalizing p with
  | nil => exact Nat.le_refl _
  | cons x gs ih =>
    cases x with
    | space => exact (Nat.le_succ _).trans (ih (p.past .space))
    | line => exact (Nat.le_succ _).trans (ih (p.past .line))
    | remark r => exact (Nat.le_add_right _ _).trans (ih (p.past (.remark r)))
    | _ => exact Nat.le_refl _

theorem stand_room_le (p : Place) (gs : List Glyph) :
    (p.stand gs).room ≤ (render gs).length ∧
      ((p.stand gs).token ≠ .eof → (p.stand gs).room < (render gs).length) := by
  induction gs generalizing p with
  | nil => exact ⟨Nat.le_refl _, fun h => absurd rfl h⟩
  | cons x gs ih =>
    cases x with
    | space =>
      obtain ⟨hle, hlt⟩ := ih (p.past .space)
      simp only [stand, render_cons, Glyph.chars, List.length_append, List.length_singleton]
      omega
    | line =>
      obtain ⟨hle, hlt⟩ := ih (p.past .line)
      simp only [stand, render_cons, Glyph.chars, List.length_append, List.length_singleton]
      omega
    | remark r =>
      obtain ⟨hle, hlt⟩ := ih (p.past (.remark r))
      simp only [stand, render_cons, Glyph.chars, Remark.chars, List.length_append,
        List.length_cons]
      omega
    | word w =>
      have hroom : (p.stand (.word w :: gs)).room = (render gs).length := rfl
      simp only [hroom, render_cons, Glyph.chars, Word.chars, List.length_append, List.length_cons]
      omega
    | sign s =>
      have hroom : (p.stand (.sign s :: gs)).room = (render gs).length := rfl
      simp only [hroom, render_cons, Glyph.chars, List.length_append, List.length_singleton]
      omega

end Place

section

variable {mode : LexMode} {inType line : Bool} {offset : Nat} {cs rest : List Char}

theorem skipTrivia_space :
    skipTrivia inType .space line offset (' ' :: cs) =
      skipTrivia inType .space line (offset + 1) cs := by
  have hbreak : isLineBreak ' ' = false := by decide
  have hspace : isSpace ' ' = true := by decide
  have hsize : (' ' : Char).utf8Size = 1 := by decide
  simp [skipTrivia, hbreak, hspace, hsize]

theorem skipTrivia_line :
    skipTrivia inType .space line offset ('\n' :: cs) =
      skipTrivia inType .space true (offset + 1) cs := by
  have hbreak : isLineBreak '\n' = true := by decide
  have hsize : ('\n' : Char).utf8Size = 1 := by decide
  simp [skipTrivia, hbreak, hsize]

/-- A remark is skipped with the end of its line. -/
theorem skipTrivia_remark (r : Remark) :
    skipTrivia inType .space line offset (r.chars ++ cs) =
      skipTrivia inType .space true (offset + Text.byteLength r.chars) cs := by
  have hbody : ∀ (text : List Char) (offset : Nat), (∀ c ∈ text, isLineBreak c = false) →
      skipTrivia inType .line line offset (text ++ '\n' :: cs) =
        skipTrivia inType .space true (offset + Text.byteLength text + 1) cs := by
    intro text
    induction text with
    | nil =>
      intro offset _
      have hbreak : isLineBreak '\n' = true := by decide
      have hsize : ('\n' : Char).utf8Size = 1 := by decide
      simp [skipTrivia, hbreak, hsize]
    | cons c text ih =>
      intro offset h
      obtain ⟨hc, htext⟩ := List.forall_mem_cons.mp h
      rw [List.cons_append, skipTrivia, hc, if_neg (by simp), ih _ htext, Text.byteLength_cons,
        Nat.add_assoc offset]
  have hunbroken : ∀ c ∈ r.text, isLineBreak c = false := by
    simpa [List.all_eq_true] using r.unbroken
  have hsize : Text.byteLength r.chars = 2 + Text.byteLength r.text + 1 := by
    have hslash : ('/' : Char).utf8Size = 1 := by decide
    have hfeed : ('\n' : Char).utf8Size = 1 := by decide
    simp only [Remark.chars, Text.byteLength_cons, Text.byteLength_append, Text.byteLength_nil,
      hslash, hfeed]
    omega
  have hchars : r.chars ++ cs = '/' :: '/' :: (r.text ++ '\n' :: cs) := by simp [Remark.chars]
  rw [hchars, skipTrivia, hbody r.text _ hunbroken, hsize]
  simp only [Nat.add_assoc]

/-- Nothing is skipped in front of a character that starts neither a gap nor a mark of a merge. -/
theorem skipTrivia_token {c : Char} (hspace : isSpace c = false) (hbreak : isLineBreak c = false)
    (hmarks : c ∉ ['/', '<', '>', '-']) (hequals : c = '=' → cs.head? = some ' ') :
    skipTrivia inType .space line offset (c :: cs) = ⟨c :: cs, offset, line, [], offset⟩ := by
  simp only [List.mem_cons, List.not_mem_nil, or_false, not_or] at hmarks
  obtain ⟨hslash, hless, hgreater, hminus⟩ := hmarks
  have hmerge : "=======".toList.isPrefixOf (c :: cs) = false := by
    cases cs with
    | nil => simp [List.isPrefixOf]
    | cons e cs =>
      simp [List.isPrefixOf]
      intro hc he
      have hhead := hequals hc.symm
      simp [← he] at hhead
  have hours : "<<<<<<< ".toList.isPrefixOf (c :: cs) = false := by
    simp [List.isPrefixOf, Ne.symm hless]
  have htheirs : ">>>>>>> ".toList.isPrefixOf (c :: cs) = false := by
    simp [List.isPrefixOf, Ne.symm hgreater]
  have hconflict : isConflictMarker inType (c :: cs) = false := by
    simp only [isConflictMarker, hmerge, hours, htheirs, Bool.or_self, Bool.and_false]
  have hcomment : "<!--".toList.isPrefixOf (c :: cs) = false := by
    simp [List.isPrefixOf, Ne.symm hless]
  have harrow : "-->".toList.isPrefixOf (c :: cs) = false := by
    simp [List.isPrefixOf, Ne.symm hminus]
  rw [skipTrivia]
  · simp only [hbreak, hspace, hcomment, harrow, hconflict, Bool.and_false, Bool.false_eq_true,
      if_false]
  · rintro rest rfl
    simp at hslash
  · rintro rest rfl
    simp at hslash

theorem scanWord_append (fuel offset : Nat) (hcs : ∀ c ∈ cs, isNamePart c = true)
    (hrest : ∀ c, rest.head? = some c → isNamePart c = false ∧ c ≠ '\\')
    (hfuel : cs.length < fuel) :
    scanWord fuel offset (cs ++ rest) = ⟨cs, false, cs, rest, [], none⟩ := by
  induction cs generalizing fuel offset with
  | nil =>
    obtain ⟨fuel, rfl⟩ : ∃ n, fuel = n + 1 := ⟨fuel - 1, by omega⟩
    cases rest with
    | nil => rfl
    | cons c rest =>
      obtain ⟨hpart, hslash⟩ := hrest c rfl
      rw [List.nil_append, scanWord]
      · simp [hslash, hpart]
      · rintro cs rfl
        simp at hslash
  | cons c cs ih =>
    obtain ⟨fuel, rfl⟩ : ∃ n, fuel = n + 1 := ⟨fuel - 1, by omega⟩
    have hpart := hcs c (by simp)
    have hslash : c ≠ '\\' := by
      rintro rfl
      exact absurd hpart (by decide)
    rw [List.cons_append, scanWord]
    · have hword := ih fuel (offset + c.utf8Size) (fun e he => hcs e (by simp [he]))
        (by simpa using hfuel)
      rw [if_neg hslash, if_pos hpart, hword]
      rfl
    · rintro cs rfl
      simp at hslash

theorem scanToken_word (w : Word)
    (hrest : ∀ c, rest.head? = some c → isNamePart c = false ∧ c ≠ '\\') :
    scanToken mode offset (w.chars ++ rest) = ⟨.word w.text true, w.chars, rest, []⟩ := by
  have hlength : w.chars.length < (w.chars ++ rest).length + 1 := by
    rw [List.length_append]
    omega
  have hword := scanWord_append _ offset (fun c hc => w.isNamePart_of_mem hc) hrest hlength
  have hslash := ne_of_isNameStart w.first_isNameStart '\\' (by decide)
  have hshape : w.chars ++ rest = w.first :: (w.more ++ rest) := rfl
  rw [hshape, scanToken]
  simp only [w.first_isNameStart, Bool.true_or, if_true]
  rw [← hshape, wordToken, hword]
  simp [hshape, hslash, Word.text]

/-- What follows a sign so that nothing else can be read there. -/
def Sign.Ends (s : Sign) (cs : List Char) : Prop :=
  match s with
  | .dot => ∃ c, cs.head? = some c ∧ isNameStart c = true
  | .equals => cs.head? = some ' '
  | _ => True

theorem scanToken_sign (s : Sign) (h : s.Ends rest) :
    scanToken mode offset (s.char :: rest) = ⟨.mark s.mark, [s.char], rest, []⟩ := by
  have hstart : isNameStart s.char = false := by cases s <;> decide
  have hdigit : s.char.isDigit = false := by cases s <;> decide
  have hslash : s.char ≠ '\\' := by cases s <;> decide
  have hquote : s.char ≠ '"' ∧ s.char ≠ '\'' ∧ s.char ≠ '\x60' := by cases s <;> decide
  have hnumber : (s.char = '.' && (rest.head?.map Char.isDigit).getD false) = false := by
    cases s with
    | dot =>
      obtain ⟨c, hc, hletter⟩ := h
      simp [hc, isDigit_of_isNameStart hletter]
    | _ => rfl
  have hmark : scanMark mode.inType (s.char :: rest) = some (s.mark, 1) := by
    cases s with
    | dot =>
      obtain ⟨c, hc, hletter⟩ := h
      have hdot := ne_of_isNameStart hletter '.' (by decide)
      rw [Sign.char, scanMark]
      · rfl
      · rintro tail rfl
        simp at hc
        exact hdot hc.symm
    | equals =>
      have hspace : rest.head? = some ' ' := h
      rw [Sign.char, scanMark]
      · rfl
      all_goals
        rintro tail rfl
        simp at hspace
    | _ => rfl
  simp only [scanToken, hstart, hdigit, hslash, hquote, hnumber, hmark]
  simp

end

section

variable {mode : LexMode} {p : Place} {w : Word} {s : Sign} {gs : List Glyph}

theorem head_of_word_fits (h : (Glyph.word w).fits gs = true) {c : Char}
    (hc : (render gs).head? = some c) : isNamePart c = false ∧ c ≠ '\\' := by
  cases gs with
  | nil => simp at hc
  | cons x gs =>
    cases x with
    | word => simp [Glyph.fits] at h
    | sign s =>
      obtain rfl : s.char = c := by simpa [Glyph.chars] using hc
      cases s <;> decide
    | space =>
      obtain rfl : ' ' = c := by simpa [Glyph.chars] using hc
      decide
    | line =>
      obtain rfl : '\n' = c := by simpa [Glyph.chars] using hc
      decide
    | remark r =>
      obtain rfl : '/' = c := by simpa [Glyph.chars, Remark.chars] using hc
      decide

theorem ends_of_sign_fits (h : (Glyph.sign s).fits gs = true) : s.Ends (render gs) := by
  cases s with
  | dot =>
    cases gs with
    | nil => simp [Glyph.fits] at h
    | cons x gs =>
      cases x with
      | word w => exact ⟨w.first, rfl, w.first_isNameStart⟩
      | _ => simp [Glyph.fits] at h
  | equals =>
    cases gs with
    | nil => simp [Glyph.fits] at h
    | cons x gs =>
      cases x with
      | space => rfl
      | _ => simp [Glyph.fits] at h
  | _ => trivial

/-- A token is read as the token that was written. -/
theorem lex_token {token : Token} {cs rest : List Char} {line : Bool} {offset : Nat}
    (hskip : skipTrivia mode.inType .space line offset (cs ++ rest) =
      ⟨cs ++ rest, offset, line, [], offset⟩)
    (hscan : scanToken mode offset (cs ++ rest) = ⟨token, cs, rest, []⟩) (htoken : token ≠ .eof) :
    (Cursor.mk (cs ++ rest) offset).lex mode line =
      ⟨token, ⟨offset, offset + Text.byteLength cs⟩, line,
        ⟨rest, offset + Text.byteLength cs⟩, []⟩ := by
  simp [Cursor.lex, hskip, hscan, Scan.lexeme, htoken]

/-- The tokens of a text are those that it was made of. -/
theorem lex_render (h : Apart gs) :
    (Cursor.mk (render gs) p.offset).lex mode p.line = (p.stand gs).lexeme := by
  induction gs generalizing p with
  | nil =>
    have hskip : skipTrivia mode.inType .space p.line p.offset [] =
        ⟨[], p.offset, p.line, [], p.offset⟩ := by simp [skipTrivia]
    simp [Cursor.lex, hskip, scanToken, Scan.lexeme, Place.stand]
  | cons x gs ih =>
    obtain ⟨hfits, hgs⟩ := h
    cases x with
    | space =>
      have hnext := ih (p := p.past .space) hgs
      simp only [Cursor.lex, render_cons, Glyph.chars, List.singleton_append, skipTrivia_space,
        Place.past] at hnext ⊢
      exact hnext
    | line =>
      have hnext := ih (p := p.past .line) hgs
      simp only [Cursor.lex, render_cons, Glyph.chars, List.singleton_append, skipTrivia_line,
        Place.past] at hnext ⊢
      exact hnext
    | remark r =>
      have hnext := ih (p := p.past (.remark r)) hgs
      simp only [Cursor.lex, render_cons, Glyph.chars, skipTrivia_remark, Place.past] at hnext ⊢
      exact hnext
    | word w =>
      have hmarks : w.first ∉ ['/', '<', '>', '-'] := by
        simp only [List.mem_cons, List.not_mem_nil, or_false, not_or]
        exact ⟨ne_of_isNameStart w.first_isNameStart _ (by decide),
          ne_of_isNameStart w.first_isNameStart _ (by decide),
          ne_of_isNameStart w.first_isNameStart _ (by decide),
          ne_of_isNameStart w.first_isNameStart _ (by decide)⟩
      have hequals := ne_of_isNameStart w.first_isNameStart '=' (by decide)
      have hskip : skipTrivia mode.inType .space p.line p.offset (w.chars ++ render gs) =
          ⟨w.chars ++ render gs, p.offset, p.line, [], p.offset⟩ :=
        skipTrivia_token (isSpace_of_isNameStart w.first_isNameStart)
          (isLineBreak_of_isNameStart w.first_isNameStart) hmarks (fun h => absurd h hequals)
      exact lex_token hskip (scanToken_word w fun c hc => head_of_word_fits hfits hc) (by simp)
    | sign s =>
      have hends := ends_of_sign_fits hfits
      have hspace : isSpace s.char = false := by cases s <;> decide
      have hbreak : isLineBreak s.char = false := by cases s <;> decide
      have hmarks : s.char ∉ ['/', '<', '>', '-'] := by cases s <;> decide
      have hequals : s.char = '=' → (render gs).head? = some ' ' := by
        cases s <;> intro hc <;> first | exact hends | exact absurd hc (by decide)
      exact lex_token (skipTrivia_token hspace hbreak hmarks hequals) (scanToken_sign s hends)
        (by simp)

theorem tokenAt_step {token : Token} {cs : List Char} (h : Apart gs) :
    (p.tokenAt token cs gs).Step ((p.pastToken cs).stand gs) where
  lex _ := lex_render (p := p.pastToken cs) h
  clean := Place.stand_issues _ gs
  before := Place.stand_before _ gs
  forward := ⟨Nat.le_add_right _ _, Place.offset_le_stand (p.pastToken cs) gs⟩
  shorter := Place.stand_room_le _ gs

theorem word_step (h : Apart (.word w :: gs)) :
    (p.stand (.word w :: gs)).Step ((p.past (.word w)).stand gs) :=
  tokenAt_step h.2

theorem sign_step (h : Apart (.sign s :: gs)) :
    (p.stand (.sign s :: gs)).Step ((p.past (.sign s)).stand gs) :=
  tokenAt_step h.2

/-! ### The tokens of glyphs -/

@[simp] theorem stand_space : p.stand (.space :: gs) = (p.past .space).stand gs := rfl

@[simp] theorem stand_line : p.stand (.line :: gs) = (p.past .line).stand gs := rfl

@[simp] theorem stand_remark (r : Remark) :
    p.stand (.remark r :: gs) = (p.past (.remark r)).stand gs := rfl

@[simp] theorem stand_word_token : (p.stand (.word w :: gs)).token = .word w.text true := rfl

@[simp] theorem stand_sign_token : (p.stand (.sign s :: gs)).token = .mark s.mark := rfl

@[simp] theorem stand_word_newline : (p.stand (.word w :: gs)).newline = p.line := rfl

@[simp] theorem stand_sign_newline : (p.stand (.sign s :: gs)).newline = p.line := rfl

@[simp] theorem stand_nil_token : (p.stand []).token = .eof := rfl

end

end Script
end CastLint
