import CastLint.Proofs.JsonTexts

/-! Reading JSON. The reader goes from the front of a text to its end and finds the value of every text
that stands for a value, so no text stands for two values. -/

namespace CastLint
namespace Report
namespace Json

/-! ### Reading a text -/

def dropBlanks (cs : List Char) : List Char := cs.dropWhile isBlank

def readUnit? (cs : List Char) : Option (ℕ × List Char) :=
  (unit? (cs.take 4)).map fun n => (n, cs.drop 4)

/-- The character behind a backslash and the letter for code units. -/
def readCode? (cs : List Char) : Option (Char × List Char) := do
  let (high, rest) ← readUnit? cs
  if isHigh high then
    match rest with
    | '\\' :: 'u' :: rest =>
      let (low, rest) ← readUnit? rest
      if isLow low then some (Char.ofNat (pairCode high low), rest) else none
    | _ => none
  else if isLow high then none
  else some (Char.ofNat high, rest)

def readChar? : List Char → Option (Char × List Char)
  | [] => none
  | c :: cs =>
    if c = '\\' then
      match cs with
      | [] => none
      | letter :: cs =>
        if letter = 'u' then readCode? cs else (shortEscape? letter).map fun c => (c, cs)
    else if c = '"' || c.toNat < 32 then none
    else some (c, cs)

def readChars? : (fuel : ℕ) → List Char → Option (List Char × List Char)
  | 0, _ => none
  | fuel + 1, cs =>
    if cs.head? = some '"' then some ([], cs.tail)
    else do
      let (c, rest) ← readChar? cs
      let (s, rest) ← readChars? fuel rest
      some (c :: s, rest)

def readQuoted? (fuel : ℕ) : List Char → Option (String × List Char)
  | '"' :: cs => (readChars? fuel cs).map fun (s, rest) => (String.ofList s, rest)
  | _ => none

/-- A number, whose digits do not start with a needless zero. -/
def readNumber? (cs : List Char) : Option (Json × List Char) :=
  let ds := cs.takeWhile Char.isDigit
  let n := Nat.ofDigitChars 10 ds 0
  if digits n = ds then some (number n, cs.dropWhile Char.isDigit) else none

def readBoolean? (cs : List Char) : Option (Json × List Char) :=
  if (booleanText true).isPrefixOf cs then some (boolean true, cs.drop 4)
  else if (booleanText false).isPrefixOf cs then some (boolean false, cs.drop 5)
  else none

/-- A character with blanks in front. -/
def readSign? (c : Char) (cs : List Char) : Option (List Char) :=
  if (dropBlanks cs).head? = some c then some (dropBlanks cs).tail else none

mutual

def readValue? : (fuel : ℕ) → List Char → Option (Json × List Char)
  | 0, _ => none
  | fuel + 1, cs =>
    match readSign? '[' cs, readSign? '\x7b' cs with
    | some cs, _ =>
      match readSign? ']' cs with
      | some rest => some (array [], rest)
      | none => do
        let (j, rest) ← readValue? fuel cs
        let (js, rest) ← readItems? fuel rest
        some (array (j :: js), rest)
    | none, some cs =>
      match readSign? '\x7d' cs with
      | some rest => some (object [], rest)
      | none => do
        let (kj, rest) ← readField? fuel cs
        let (kjs, rest) ← readMembers? fuel rest
        some (object (kj :: kjs), rest)
    | none, none =>
      let cs := dropBlanks cs
      ((readQuoted? fuel cs).map fun (s, rest) => (string s, rest)) <|> readBoolean? cs <|>
        readNumber? cs

/-- What stands behind an item of an array. -/
def readItems? : (fuel : ℕ) → List Char → Option (List Json × List Char)
  | 0, _ => none
  | fuel + 1, cs =>
    match readSign? ']' cs with
    | some rest => some ([], rest)
    | none => do
      let (j, rest) ← readValue? fuel (← readSign? ',' cs)
      let (js, rest) ← readItems? fuel rest
      some (j :: js, rest)

def readField? : (fuel : ℕ) → List Char → Option ((String × Json) × List Char)
  | 0, _ => none
  | fuel + 1, cs => do
    let (k, rest) ← readQuoted? fuel (dropBlanks cs)
    let (j, rest) ← readValue? fuel (← readSign? ':' rest)
    some ((k, j), rest)

/-- What stands behind a field of an object. -/
def readMembers? : (fuel : ℕ) → List Char → Option (List (String × Json) × List Char)
  | 0, _ => none
  | fuel + 1, cs =>
    match readSign? '\x7d' cs with
    | some rest => some ([], rest)
    | none => do
      let (kj, rest) ← readField? fuel (← readSign? ',' cs)
      let (kjs, rest) ← readMembers? fuel rest
      some (kj :: kjs, rest)

end

def read? (s : String) : Option Json := do
  let (j, rest) ← readValue? (s.toList.length + 1) s.toList
  if rest.all isBlank then some j else none

/-! ### The reader finds the value of a text -/

section

variable {c : Char} {gap cs rest : List Char} {l : Language Char} {fuel : ℕ}

theorem dropBlanks_append (h : gap ∈ blanks) (cs : List Char) :
    dropBlanks (gap ++ cs) = dropBlanks cs :=
  List.dropWhile_append_of_pos (List.all_eq_true.mp h)

theorem dropBlanks_cons (h : isBlank c = false) (cs : List Char) : dropBlanks (c :: cs) = c :: cs :=
  List.dropWhile_cons_of_neg (by simp [h])

theorem readSign?_append (hc : isBlank c = false) (h : cs ∈ sign c) (rest : List Char) :
    readSign? c (cs ++ rest) = some rest := by
  obtain ⟨gap, hgap, text, rfl, rfl⟩ := Language.mem_mul.mp h
  rw [readSign?, List.append_assoc, dropBlanks_append hgap, List.singleton_append, dropBlanks_cons hc]
  simp

theorem readSign?_eq_none {d : Char} (hd : isBlank d = false) (h : d ≠ c) (hgap : gap ∈ blanks) :
    readSign? c (gap ++ d :: rest) = none := by
  rw [readSign?, dropBlanks_append hgap, dropBlanks_cons hd]
  simp [h]

theorem readSign?_of_mem_sign {d : Char} (hd : isBlank d = false) (hne : d ≠ c) (h : cs ∈ sign d)
    (rest : List Char) : readSign? c (cs ++ rest) = none := by
  obtain ⟨gap, hgap, _, rfl, rfl⟩ := Language.mem_mul.mp h
  rw [List.append_assoc]
  exact readSign?_eq_none hd hne hgap

theorem length_pos_of_mem_sign (h : cs ∈ sign c) : 0 < cs.length := by
  obtain ⟨gap, -, text, rfl, rfl⟩ := Language.mem_mul.mp h
  simp

/-! #### Characters and strings -/

theorem readUnit?_append {n : ℕ} (h : unit? cs = some n) (rest : List Char) :
    readUnit? (cs ++ rest) = some (n, rest) := by
  obtain ⟨a, b, c, d, rfl⟩ : ∃ a b c d, cs = [a, b, c, d] := by
    unfold unit? at h
    split at h
    · exact ⟨_, _, _, _, rfl⟩
    · simp at h
  simp [readUnit?, h]

theorem readCode?_unit (h : unit? cs = some c.toNat) (rest : List Char) :
    readCode? (cs ++ rest) = some (c, rest) := by
  have hvalid : c.toNat < 0xD800 ∨ 0xDFFF < c.toNat := c.valid.imp id And.left
  have hhigh : isHigh c.toNat = false := by simp [isHigh]; omega
  have hlow : isLow c.toNat = false := by simp [isLow]; omega
  simp [readCode?, readUnit?_append h, hhigh, hlow]

theorem readCode?_pair {ds es : List Char} {high low : ℕ} (hds : unit? ds = some high)
    (hes : unit? es = some low) (hhigh : isHigh high = true) (hlow : isLow low = true)
    (h : pairCode high low = c.toNat) (rest : List Char) :
    readCode? (ds ++ '\\' :: 'u' :: es ++ rest) = some (c, rest) := by
  simp [readCode?, List.append_assoc, readUnit?_append hds, readUnit?_append hes, hhigh, hlow, h]

theorem Spells.readChar? (h : Spells c cs) (rest : List Char) :
    readChar? (cs ++ rest) = some (c, rest) := by
  cases h with
  | plain hquote hslash hcontrol => simp [Json.readChar?, hquote, hslash]; omega
  | @short letter h =>
    have hu : letter ≠ 'u' := by
      rintro rfl
      simp [shortEscape?, List.lookup_cons] at h
    simp [Json.readChar?, hu, h]
  | unit h => simp [Json.readChar?, readCode?_unit h]
  | pair hds hes hhigh hlow h =>
    simpa [Json.readChar?] using readCode?_pair hds hes hhigh hlow h rest

theorem Spells.head? (h : Spells c cs) : ∃ d text, cs = d :: text ∧ d ≠ '"' := by
  cases h with
  | plain hquote => exact ⟨c, [], rfl, hquote⟩
  | short | unit | pair => exact ⟨'\\', _, rfl, by decide⟩

theorem readChars?_append {s : List Char} (h : cs ∈ (s.map charTexts).prod)
    (hfuel : cs.length < fuel) (rest : List Char) :
    readChars? fuel (cs ++ '"' :: rest) = some (s, rest) := by
  induction s generalizing cs fuel with
  | nil =>
    obtain rfl : cs = [] := h
    obtain ⟨fuel, rfl⟩ := Nat.exists_eq_succ_of_ne_zero (Nat.ne_of_gt hfuel)
    simp [readChars?]
  | cons c s ih =>
    rw [List.map_cons, List.prod_cons] at h
    obtain ⟨first, hfirst, more, hmore, rfl⟩ := Language.mem_mul.mp h
    -- no way to write a character starts with the quote that would end the string
    obtain ⟨d, text, hd, hquote⟩ := hfirst.head?
    obtain ⟨fuel, rfl⟩ := Nat.exists_eq_succ_of_ne_zero (Nat.ne_zero_of_lt hfuel)
    have hlength : more.length < fuel := by
      rw [hd] at hfuel
      simp only [List.length_append, List.length_cons] at hfuel
      omega
    have hchar := hfirst.readChar? (more ++ '"' :: rest)
    rw [readChars?, List.append_assoc, if_neg (by simp [hd, hquote]), hchar]
    simp [ih hmore hlength]

theorem exists_of_mem_quotedTexts {s : String} (h : cs ∈ quotedTexts s) :
    ∃ text ∈ (s.toList.map charTexts).prod, cs = '"' :: (text ++ ['"']) := by
  obtain ⟨front, hfront, _, rfl, rfl⟩ := Language.mem_mul.mp h
  obtain ⟨text, htext, rfl⟩ := mem_word_mul_iff.mp hfront
  exact ⟨text, htext, rfl⟩

theorem readQuoted?_append {s : String} (h : cs ∈ quotedTexts s) (hfuel : cs.length ≤ fuel)
    (rest : List Char) : readQuoted? fuel (cs ++ rest) = some (s, rest) := by
  obtain ⟨text, htext, rfl⟩ := exists_of_mem_quotedTexts h
  simp only [List.length_append, List.length_cons] at hfuel
  have hread := readChars?_append htext (by omega : text.length < fuel) rest
  simp [readQuoted?, hread]

/-! #### Numbers and truth values -/

/-- A text in front of which a number ends. -/
def EndsNumber (rest : List Char) : Prop := ∀ c ∈ rest.head?, c.isDigit = false

theorem endsNumber_blanks (h : gap ∈ blanks) (hrest : EndsNumber rest) : EndsNumber (gap ++ rest) := by
  cases gap with
  | nil => exact hrest
  | cons d gap =>
    have hd : isBlank d = true := List.all_eq_true.mp h d (by simp)
    simp only [isBlank, Bool.or_eq_true, decide_eq_true_eq] at hd
    obtain ((rfl | rfl) | rfl) | rfl := hd <;> simp [EndsNumber]

theorem endsNumber_of_mem_sign (hc : c.isDigit = false) (h : cs ∈ sign c) (rest : List Char) :
    EndsNumber (cs ++ rest) := by
  obtain ⟨gap, hgap, _, rfl, rfl⟩ := Language.mem_mul.mp h
  rw [List.append_assoc]
  exact endsNumber_blanks hgap (by simpa [EndsNumber] using hc)

theorem readNumber?_append (n : ℕ) (h : EndsNumber rest) :
    readNumber? (digits n ++ rest) = some (number n, rest) := by
  have hdigits : ∀ c ∈ digits n, c.isDigit = true := fun c hc =>
    Nat.isDigit_of_mem_toDigits (by omega) (by omega) hc
  have htake : (digits n ++ rest).takeWhile Char.isDigit = digits n := by
    rw [List.takeWhile_append_of_pos hdigits]
    cases rest with
    | nil => simp
    | cons c rest => simp [h c rfl]
  have hdrop : (digits n ++ rest).dropWhile Char.isDigit = rest := by
    rw [List.dropWhile_append_of_pos hdigits]
    cases rest with
    | nil => rfl
    | cons c rest => simp [h c rfl]
  have hvalue : Nat.ofDigitChars 10 (digits n) 0 = n := Nat.ofDigitChars_ten_toDigits
  simp [readNumber?, htake, hdrop, hvalue]

theorem exists_digits_eq (n : ℕ) : ∃ c ds, digits n = c :: ds ∧ c.isDigit = true := by
  cases hdigits : digits n with
  | nil => exact absurd hdigits Nat.toDigits_ne_nil
  | cons c ds =>
    have hc : c ∈ digits n := by simp [hdigits]
    exact ⟨c, ds, rfl, Nat.isDigit_of_mem_toDigits (by omega) (by omega) hc⟩

theorem readBoolean?_append (b : Bool) (rest : List Char) :
    readBoolean? (booleanText b ++ rest) = some (boolean b, rest) := by
  cases b <;> simp [readBoolean?, booleanText]

theorem readBoolean?_of_isDigit (hc : c.isDigit = true) (cs : List Char) :
    readBoolean? (c :: cs) = none := by
  have htrue : 't' ≠ c := by rintro rfl; simp at hc
  have hfalse : 'f' ≠ c := by rintro rfl; simp at hc
  simp [readBoolean?, booleanText, htrue, hfalse]

theorem readQuoted?_of_ne (hc : c ≠ '"') (cs : List Char) : readQuoted? fuel (c :: cs) = none := by
  unfold readQuoted?
  split
  · simp_all
  · rfl

/-! #### Values -/

/-- A value that holds no other ones. -/
def IsScalar : Json → Prop
  | string _ | number _ | boolean _ => True
  | array _ | object _ => False

theorem head_of_isScalar {j : Json} (hj : IsScalar j) (h : cs ∈ texts j) :
    ∃ c text, cs = c :: text ∧ isBlank c = false ∧ c ≠ '[' ∧ c ≠ '\x7b' ∧ c ≠ ']' := by
  cases j with
  | string s =>
    rw [texts] at h
    obtain ⟨text, -, rfl⟩ := exists_of_mem_quotedTexts h
    exact ⟨'"', _, rfl, by decide⟩
  | number n =>
    rw [texts, mem_word_iff] at h
    obtain ⟨c, ds, hdigits, hc⟩ := exists_digits_eq n
    have hne : ∀ d : Char, d.isDigit = false → c ≠ d := by
      rintro d hd rfl
      rw [hd] at hc
      exact Bool.noConfusion hc
    refine ⟨c, ds, h.trans hdigits, ?_, hne _ rfl, hne _ rfl, hne _ rfl⟩
    simp [isBlank, hne]
  | boolean b =>
    rw [texts, mem_word_iff] at h
    cases b with
    | false => exact ⟨'f', _, h, by decide⟩
    | true => exact ⟨'t', _, h, by decide⟩
  | array js => exact hj.elim
  | object kjs => exact hj.elim

/-- A value starts with no blank, and with nothing that closes an array. -/
theorem head_of_mem_texts {j : Json} (h : cs ∈ texts j) :
    ∃ c text, cs = c :: text ∧ isBlank c = false ∧ c ≠ ']' := by
  cases j with
  | string | number | boolean =>
    obtain ⟨c, text, rfl, hblank, -, -, hclose⟩ := head_of_isScalar (by trivial) h
    exact ⟨c, text, rfl, hblank, hclose⟩
  | array js =>
    cases js <;>
    · rw [texts] at h
      obtain ⟨more, -, rfl⟩ := mem_word_mul_iff.mp h
      exact ⟨'[', more, rfl, by decide⟩
  | object kjs =>
    cases kjs <;>
    · rw [texts] at h
      obtain ⟨more, -, rfl⟩ := mem_word_mul_iff.mp h
      exact ⟨'\x7b', more, rfl, by decide⟩

/-- The reader finds a value in each of its texts, with enough fuel for the text. -/
def IsRead (j : Json) : Prop :=
  ∀ fuel cs rest, cs ∈ blanks * texts j → cs.length < fuel → EndsNumber rest →
    readValue? fuel (cs ++ rest) = some (j, rest)

theorem isRead_of_isScalar {j : Json} (hj : IsScalar j) : IsRead j := by
  intro fuel cs rest h hfuel hrest
  obtain ⟨fuel, rfl⟩ := Nat.exists_eq_succ_of_ne_zero (Nat.ne_zero_of_lt hfuel)
  obtain ⟨gap, hgap, text, htext, rfl⟩ := Language.mem_mul.mp h
  obtain ⟨c, more, rfl, hblank, hlist, hrecord, -⟩ := head_of_isScalar hj htext
  -- nothing is opened in front of the value, so the reader tries the values that hold no other ones
  have harray : readSign? '[' (gap ++ c :: (more ++ rest)) = none :=
    readSign?_eq_none hblank hlist hgap
  have hobject : readSign? '\x7b' (gap ++ c :: (more ++ rest)) = none :=
    readSign?_eq_none hblank hrecord hgap
  have hdrop : dropBlanks (gap ++ (c :: more ++ rest)) = c :: more ++ rest := by
    rw [dropBlanks_append hgap, List.cons_append, dropBlanks_cons hblank]
  rw [List.append_assoc, readValue?, List.cons_append, harray, hobject, ← List.cons_append]
  simp only [hdrop]
  cases j with
  | string s =>
    rw [texts] at htext
    have hlength : (c :: more).length ≤ fuel := by
      rw [List.length_append] at hfuel
      omega
    rw [readQuoted?_append htext hlength]
    rfl
  | number n =>
    rw [texts, mem_word_iff] at htext
    obtain ⟨d, ds, hdigits, hd⟩ := exists_digits_eq n
    obtain ⟨rfl, rfl⟩ := List.cons.inj (htext.trans hdigits)
    have hquote : c ≠ '"' := by rintro rfl; simp at hd
    rw [List.cons_append, readQuoted?_of_ne hquote, readBoolean?_of_isDigit hd, ← List.cons_append,
      htext, readNumber?_append n hrest]
    rfl
  | boolean b =>
    rw [texts, mem_word_iff] at htext
    have hquote : c ≠ '"' := by
      rintro rfl
      cases b <;> simp [booleanText] at htext
    rw [List.cons_append, readQuoted?_of_ne hquote, ← List.cons_append, htext, readBoolean?_append]
    rfl
  | array js => exact hj.elim
  | object kjs => exact hj.elim

theorem endsNumber_of_mem_sign_mul (hc : c.isDigit = false) (h : cs ∈ sign c * l)
    (rest : List Char) : EndsNumber (cs ++ rest) := by
  obtain ⟨front, hfront, more, -, rfl⟩ := Language.mem_mul.mp h
  rw [List.append_assoc]
  exact endsNumber_of_mem_sign hc hfront _

theorem endsNumber_of_mem_itemTexts {js : List Json} (h : cs ∈ itemTexts js) (rest : List Char) :
    EndsNumber (cs ++ rest) := by
  cases js with
  | nil => exact endsNumber_of_mem_sign (by decide) h rest
  | cons j js => exact endsNumber_of_mem_sign_mul (by decide) h rest

theorem endsNumber_of_mem_memberTexts {kjs : List (String × Json)} (h : cs ∈ memberTexts kjs)
    (rest : List Char) : EndsNumber (cs ++ rest) := by
  cases kjs with
  | nil => exact endsNumber_of_mem_sign (by decide) h rest
  | cons kj kjs => exact endsNumber_of_mem_sign_mul (by decide) h rest

theorem readItems?_append {js : List Json} (hjs : ∀ j ∈ js, IsRead j) (h : cs ∈ itemTexts js)
    (hfuel : cs.length < fuel) (rest : List Char) :
    readItems? fuel (cs ++ rest) = some (js, rest) := by
  induction js generalizing cs fuel with
  | nil =>
    obtain ⟨fuel, rfl⟩ := Nat.exists_eq_succ_of_ne_zero (Nat.ne_zero_of_lt hfuel)
    rw [itemTexts] at h
    rw [readItems?, readSign?_append (by decide) h]
  | cons j js ih =>
    obtain ⟨fuel, rfl⟩ := Nat.exists_eq_succ_of_ne_zero (Nat.ne_zero_of_lt hfuel)
    rw [itemTexts] at h
    obtain ⟨comma, hcomma, _, hnext, rfl⟩ := Language.mem_mul.mp h
    obtain ⟨item, hitem, more, hmore, rfl⟩ := Language.mem_mul.mp hnext
    have hpos := length_pos_of_mem_sign hcomma
    simp only [List.length_append] at hfuel
    have hvalue := hjs j (by simp) fuel item (more ++ rest) hitem (by omega)
      (endsNumber_of_mem_itemTexts hmore rest)
    have hitems := ih (fun i hi => hjs i (by simp [hi])) hmore (by omega : more.length < fuel)
    rw [readItems?, List.append_assoc, readSign?_of_mem_sign (by decide) (by decide) hcomma,
      readSign?_append (by decide) hcomma, List.append_assoc]
    simp [hvalue, hitems]

theorem readField?_append {k : String} {j : Json} (hj : IsRead j) (h : cs ∈ fieldTexts k (texts j))
    (hfuel : cs.length < fuel) (hrest : EndsNumber rest) :
    readField? fuel (cs ++ rest) = some ((k, j), rest) := by
  obtain ⟨fuel, rfl⟩ := Nat.exists_eq_succ_of_ne_zero (Nat.ne_zero_of_lt hfuel)
  obtain ⟨gap, hgap, _, hnext, rfl⟩ := Language.mem_mul.mp h
  obtain ⟨name, hname, _, hvalue, rfl⟩ := Language.mem_mul.mp hnext
  obtain ⟨colon, hcolon, item, hitem, rfl⟩ := Language.mem_mul.mp hvalue
  have hpos := length_pos_of_mem_sign hcolon
  simp only [List.length_append] at hfuel
  have hdrop : dropBlanks (name ++ (colon ++ (item ++ rest))) = name ++ (colon ++ (item ++ rest)) := by
    obtain ⟨text, -, rfl⟩ := exists_of_mem_quotedTexts hname
    exact dropBlanks_cons (by decide) _
  have hkey := readQuoted?_append hname (by omega : name.length ≤ fuel) (colon ++ (item ++ rest))
  have hvalue := hj fuel item rest hitem (by omega) hrest
  simp only [List.append_assoc]
  rw [readField?, dropBlanks_append hgap, hdrop, hkey]
  simp [readSign?_append (by decide : isBlank ':' = false) hcolon, hvalue]

theorem readMembers?_append {kjs : List (String × Json)} (hkjs : ∀ kj ∈ kjs, IsRead kj.2)
    (h : cs ∈ memberTexts kjs) (hfuel : cs.length < fuel) (rest : List Char) :
    readMembers? fuel (cs ++ rest) = some (kjs, rest) := by
  induction kjs generalizing cs fuel with
  | nil =>
    obtain ⟨fuel, rfl⟩ := Nat.exists_eq_succ_of_ne_zero (Nat.ne_zero_of_lt hfuel)
    rw [memberTexts] at h
    rw [readMembers?, readSign?_append (by decide) h]
  | cons kj kjs ih =>
    obtain ⟨fuel, rfl⟩ := Nat.exists_eq_succ_of_ne_zero (Nat.ne_zero_of_lt hfuel)
    rw [memberTexts] at h
    obtain ⟨comma, hcomma, _, hnext, rfl⟩ := Language.mem_mul.mp h
    obtain ⟨field, hfield, more, hmore, rfl⟩ := Language.mem_mul.mp hnext
    have hpos := length_pos_of_mem_sign hcomma
    simp only [List.length_append] at hfuel
    have hvalue := readField?_append (hkjs kj (by simp)) hfield (by omega : field.length < fuel)
      (endsNumber_of_mem_memberTexts hmore rest)
    have hmembers := ih (fun i hi => hkjs i (by simp [hi])) hmore (by omega : more.length < fuel)
    rw [readMembers?, List.append_assoc, readSign?_of_mem_sign (by decide) (by decide) hcomma,
      readSign?_append (by decide) hcomma, List.append_assoc]
    simp [hvalue, hmembers]

theorem isRead_array {js : List Json} (hjs : ∀ j ∈ js, IsRead j) : IsRead (array js) := by
  intro fuel cs rest h hfuel hrest
  obtain ⟨fuel, rfl⟩ := Nat.exists_eq_succ_of_ne_zero (Nat.ne_zero_of_lt hfuel)
  cases js with
  | nil =>
    rw [texts, ← mul_assoc] at h
    obtain ⟨start, hstart, close, hclose, rfl⟩ := Language.mem_mul.mp h
    rw [List.append_assoc, readValue?, readSign?_append (by decide) hstart]
    simp only [readSign?_append (by decide : isBlank ']' = false) hclose]
  | cons j js =>
    rw [texts, ← mul_assoc] at h
    obtain ⟨start, hstart, _, hnext, rfl⟩ := Language.mem_mul.mp h
    obtain ⟨item, hitem, more, hmore, rfl⟩ := Language.mem_mul.mp hnext
    have hpos := length_pos_of_mem_sign hstart
    simp only [List.length_append] at hfuel
    have hvalue := hjs j (by simp) fuel item (more ++ rest) hitem (by omega)
      (endsNumber_of_mem_itemTexts hmore rest)
    have hitems := readItems?_append (fun i hi => hjs i (by simp [hi])) hmore
      (by omega : more.length < fuel) rest
    -- an array with an item is not taken for the empty one
    have hclose : readSign? ']' (item ++ (more ++ rest)) = none := by
      obtain ⟨gap, hgap, text, htext, rfl⟩ := Language.mem_mul.mp hitem
      obtain ⟨c, text, rfl, hblank, hne⟩ := head_of_mem_texts htext
      rw [List.append_assoc]
      exact readSign?_eq_none hblank hne hgap
    rw [List.append_assoc, readValue?, readSign?_append (by decide) hstart, List.append_assoc]
    simp [hclose, hvalue, hitems]

theorem isRead_object {kjs : List (String × Json)} (hkjs : ∀ kj ∈ kjs, IsRead kj.2) :
    IsRead (object kjs) := by
  intro fuel cs rest h hfuel hrest
  obtain ⟨fuel, rfl⟩ := Nat.exists_eq_succ_of_ne_zero (Nat.ne_zero_of_lt hfuel)
  cases kjs with
  | nil =>
    rw [texts, ← mul_assoc] at h
    obtain ⟨start, hstart, close, hclose, rfl⟩ := Language.mem_mul.mp h
    rw [List.append_assoc, readValue?, readSign?_of_mem_sign (by decide) (by decide) hstart,
      readSign?_append (by decide) hstart]
    simp only [readSign?_append (by decide : isBlank '\x7d' = false) hclose]
  | cons kj kjs =>
    rw [texts, ← mul_assoc] at h
    obtain ⟨start, hstart, _, hnext, rfl⟩ := Language.mem_mul.mp h
    obtain ⟨field, hfield, more, hmore, rfl⟩ := Language.mem_mul.mp hnext
    have hpos := length_pos_of_mem_sign hstart
    simp only [List.length_append] at hfuel
    have hvalue := readField?_append (hkjs kj (by simp)) hfield (by omega : field.length < fuel)
      (endsNumber_of_mem_memberTexts hmore rest)
    have hmembers := readMembers?_append (fun i hi => hkjs i (by simp [hi])) hmore
      (by omega : more.length < fuel) rest
    have hclose : readSign? '\x7d' (field ++ (more ++ rest)) = none := by
      obtain ⟨gap, hgap, _, htext, rfl⟩ := Language.mem_mul.mp hfield
      obtain ⟨name, hname, item, -, rfl⟩ := Language.mem_mul.mp htext
      obtain ⟨text, -, rfl⟩ := exists_of_mem_quotedTexts hname
      rw [List.append_assoc]
      exact readSign?_eq_none (by decide) (by decide) hgap
    rw [List.append_assoc, readValue?, readSign?_of_mem_sign (by decide) (by decide) hstart,
      readSign?_append (by decide) hstart, List.append_assoc]
    simp [hclose, hvalue, hmembers]

theorem isRead (j : Json) : IsRead j := by
  induction j using induct with
  | string s => exact isRead_of_isScalar (j := string s) trivial
  | number n => exact isRead_of_isScalar (j := number n) trivial
  | boolean b => exact isRead_of_isScalar (j := boolean b) trivial
  | array js ih => exact isRead_array ih
  | object kjs ih => exact isRead_object ih

/-- A text has one value, which the reader finds. -/
theorem IsText.read?_eq {s : String} {j : Json} (h : IsText s j) : read? s = some j := by
  obtain ⟨text, htext, gap, hgap, hs⟩ := Language.mem_mul.mp h
  have hnil : EndsNumber [] := by simp [EndsNumber]
  have hend : EndsNumber gap := by simpa using endsNumber_blanks hgap hnil
  have hfuel : text.length < s.toList.length + 1 := by
    rw [← hs, List.length_append]
    omega
  have hread := isRead j (s.toList.length + 1) text gap htext hfuel hend
  rw [hs] at hread
  simp only [read?, hread]
  exact if_pos hgap

example : (read? "[ 1, \x7b\"a\":\"\\ud83d\\ude00\"\x7d ]\n").map line =
    some "[1,\x7b\"a\":\"😀\"\x7d]" := by
  decide +kernel

end

end Json
end Report
end CastLint
