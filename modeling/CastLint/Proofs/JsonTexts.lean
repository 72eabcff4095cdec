import CastLint.Report.Json
import Mathlib.Computability.Language

/-! The texts of JSON values. Blanks may stand in front of every token, and a character in quotes can
be written in several ways, so a value has many texts. The two texts that are written for a value are
among them, and the one on a line holds no character that would end the line. -/

namespace CastLint
namespace Report
namespace Json

/-- A property of all values, from items and fields to what holds them. -/
theorem induct {P : Json → Prop} (string : ∀ s, P (string s)) (number : ∀ n, P (number n))
    (boolean : ∀ b, P (boolean b)) (array : ∀ js, (∀ j ∈ js, P j) → P (array js))
    (object : ∀ kjs, (∀ kj ∈ kjs, P kj.2) → P (object kjs)) (j : Json) : P j :=
  @Json.rec P (fun js => ∀ j ∈ js, P j) (fun kjs => ∀ kj ∈ kjs, P kj.2) (fun kj => P kj.2)
    string number boolean array object (by simp) (fun _ _ hj hjs => List.forall_mem_cons.mpr ⟨hj, hjs⟩)
    (by simp) (fun _ _ hj hjs => List.forall_mem_cons.mpr ⟨hj, hjs⟩) (fun _ _ hj => hj) j

/-! ### The texts of a value -/

def isBlank (c : Char) : Bool := c = ' ' || c = '\n' || c = '\r' || c = '\t'

def word (cs : List Char) : Language Char := {cs}

def blanks : Language Char := {cs | cs.all isBlank = true}

/-- A character with blanks in front. -/
def sign (c : Char) : Language Char := blanks * word [c]

def hexValue? (c : Char) : Option ℕ :=
  if '0' ≤ c ∧ c ≤ '9' then some (c.toNat - '0'.toNat)
  else if 'a' ≤ c ∧ c ≤ 'f' then some (c.toNat - 'a'.toNat + 10)
  else if 'A' ≤ c ∧ c ≤ 'F' then some (c.toNat - 'A'.toNat + 10)
  else none

def unit? : List Char → Option ℕ
  | [a, b, c, d] => do
    some ((((← hexValue? a) * 16 + (← hexValue? b)) * 16 + (← hexValue? c)) * 16 + (← hexValue? d))
  | _ => none

/-- The first of two units that stand for one character. -/
def isHigh (unit : ℕ) : Bool := 0xD800 ≤ unit && unit < 0xDC00

/-- The second of two units that stand for one character. -/
def isLow (unit : ℕ) : Bool := 0xDC00 ≤ unit && unit < 0xE000

def pairCode (high low : ℕ) : ℕ := 0x10000 + (high - 0xD800) * 0x400 + (low - 0xDC00)

def shortEscape? (letter : Char) : Option Char :=
  [('"', '"'), ('\\', '\\'), ('/', '/'), ('b', '\x08'), ('f', '\x0c'), ('n', '\n'), ('r', '\r'),
    ('t', '\t')].lookup letter

/-- The ways to write a character in quotes. -/
inductive Spells (c : Char) : List Char → Prop
  | plain (hquote : c ≠ '"') (hslash : c ≠ '\\') (hcontrol : 32 ≤ c.toNat) : Spells c [c]
  | short {letter : Char} (h : shortEscape? letter = some c) : Spells c ['\\', letter]
  | unit {ds : List Char} (h : unit? ds = some c.toNat) : Spells c ('\\' :: 'u' :: ds)
  | pair {ds es : List Char} {high low : ℕ} (hds : unit? ds = some high) (hes : unit? es = some low)
      (hhigh : isHigh high = true) (hlow : isLow low = true) (h : pairCode high low = c.toNat) :
      Spells c ('\\' :: 'u' :: (ds ++ '\\' :: 'u' :: es))

def charTexts (c : Char) : Language Char := {cs | Spells c cs}

def quotedTexts (s : String) : Language Char :=
  word ['"'] * (s.toList.map charTexts).prod * word ['"']

/-- The texts of a field whose value has the texts `l`. -/
def fieldTexts (name : String) (l : Language Char) : Language Char :=
  blanks * (quotedTexts name * (sign ':' * (blanks * l)))

mutual

def texts : Json → Language Char
  | string s => quotedTexts s
  | number n => word (digits n)
  | boolean b => word (booleanText b)
  | array [] => word ['['] * sign ']'
  | array (j :: js) => word ['['] * (blanks * texts j * itemTexts js)
  | object [] => word ['\x7b'] * sign '\x7d'
  | object ((k, j) :: kjs) => word ['\x7b'] * (fieldTexts k (texts j) * memberTexts kjs)

/-- What may stand behind an item of an array. -/
def itemTexts : List Json → Language Char
  | [] => sign ']'
  | j :: js => sign ',' * (blanks * texts j * itemTexts js)

/-- What may stand behind a field of an object. -/
def memberTexts : List (String × Json) → Language Char
  | [] => sign '\x7d'
  | (k, j) :: kjs => sign ',' * (fieldTexts k (texts j) * memberTexts kjs)

end

/-- Whether a text stands for a value, with blanks around it. -/
def IsText (s : String) (j : Json) : Prop := s.toList ∈ blanks * texts j * blanks

/-! ### Texts that a language has -/

section

variable {c : Char} {gap cs : List Char} {l : Language Char}

theorem mem_word_iff {text : List Char} : cs ∈ word text ↔ cs = text := Iff.rfl

theorem mem_word_mul_iff : cs ∈ word [c] * l ↔ ∃ more ∈ l, cs = c :: more := by
  simp [Language.mem_mul, mem_word_iff, eq_comm]

theorem mem_blanks_iff : gap ∈ blanks ↔ gap.all isBlank = true := Iff.rfl

@[simp] theorem nil_mem_blanks : [] ∈ blanks := rfl

theorem mem_blanks_mul (h : cs ∈ l) : cs ∈ blanks * l :=
  Language.mem_mul.mpr ⟨[], nil_mem_blanks, cs, h, rfl⟩

theorem cons_mem_sign_mul (h : cs ∈ l) : c :: cs ∈ sign c * l :=
  Language.append_mem_mul (mem_blanks_mul (l := word [c]) rfl) h

end

/-! ### The texts that are written -/

theorem unit?_digitChar : ∀ n < 32,
    unit? ['0', '0', Nat.digitChar (n / 16), Nat.digitChar (n % 16)] = some n := by
  decide

theorem escape_mem_charTexts (c : Char) : escape c ∈ charTexts c := by
  unfold escape
  split_ifs with hquote hslash hback hform hline hreturn htab hcontrol
  · exact .short (by rw [hquote]; rfl)
  · exact .short (by rw [hslash]; rfl)
  · exact .short (by rw [hback]; rfl)
  · exact .short (by rw [hform]; rfl)
  · exact .short (by rw [hline]; rfl)
  · exact .short (by rw [hreturn]; rfl)
  · exact .short (by rw [htab]; rfl)
  · exact .unit (unit?_digitChar _ hcontrol)
  · exact .plain hquote hslash (by omega)

theorem quote_mem_quotedTexts (s : String) : quote s ∈ quotedTexts s := by
  have hchars : ∀ cs : List Char, cs.flatMap escape ∈ (cs.map charTexts).prod := fun cs => by
    induction cs with
    | nil => rfl
    | cons c cs ih =>
      rw [List.flatMap_cons, List.map_cons, List.prod_cons]
      exact Language.append_mem_mul (escape_mem_charTexts c) ih
  exact Language.append_mem_mul (Language.append_mem_mul rfl (hchars s.toList)) rfl

/-! An item stands behind its comma and blanks `gap`, and blanks `close` stand behind the last one. Of
a field, blanks `behind` stand behind the colon. -/

section

variable {gap behind close : List Char} {w : Json → List Char} {j : Json} {k : String}

theorem flatMap_mem_itemTexts {js : List Json} (hgap : gap ∈ blanks) (hclose : close ∈ blanks)
    (hw : ∀ j ∈ js, w j ∈ texts j) :
    js.flatMap (fun j => ',' :: (gap ++ w j)) ++ (close ++ [']']) ∈ itemTexts js := by
  induction js with
  | nil =>
    have hend : close ++ [']'] ∈ sign ']' := Language.append_mem_mul hclose rfl
    exact hend
  | cons j js ih =>
    obtain ⟨hj, hjs⟩ := List.forall_mem_cons.mp hw
    have hitem := Language.append_mem_mul hgap hj
    simpa [itemTexts] using cons_mem_sign_mul (c := ',') (Language.append_mem_mul hitem (ih hjs))

theorem mem_texts_array {js : List Json} (hgap : gap ∈ blanks) (hclose : close ∈ blanks)
    (hw : ∀ i ∈ j :: js, w i ∈ texts i) :
    '[' :: (gap ++ w j ++ js.flatMap (fun j => ',' :: (gap ++ w j)) ++ (close ++ [']'])) ∈
      texts (array (j :: js)) := by
  obtain ⟨hj, hjs⟩ := List.forall_mem_cons.mp hw
  have hmore := Language.append_mem_mul (Language.append_mem_mul hgap hj)
    (flatMap_mem_itemTexts hgap hclose hjs)
  rw [texts, List.append_assoc]
  exact mem_word_mul_iff.mpr ⟨_, hmore, rfl⟩

def fieldText (gap behind : List Char) (w : Json → List Char) (kj : String × Json) : List Char :=
  gap ++ (quote kj.1 ++ (':' :: (behind ++ w kj.2)))

theorem fieldText_mem_fieldTexts {kj : String × Json} (hgap : gap ∈ blanks)
    (hbehind : behind ∈ blanks) (hj : w kj.2 ∈ texts kj.2) :
    fieldText gap behind w kj ∈ fieldTexts kj.1 (texts kj.2) := by
  have hvalue := cons_mem_sign_mul (c := ':') (Language.append_mem_mul hbehind hj)
  exact Language.append_mem_mul hgap (Language.append_mem_mul (quote_mem_quotedTexts kj.1) hvalue)

theorem flatMap_mem_memberTexts {kjs : List (String × Json)} (hgap : gap ∈ blanks)
    (hbehind : behind ∈ blanks) (hclose : close ∈ blanks) (hw : ∀ kj ∈ kjs, w kj.2 ∈ texts kj.2) :
    kjs.flatMap (fun kj => ',' :: fieldText gap behind w kj) ++ (close ++ ['\x7d']) ∈
      memberTexts kjs := by
  induction kjs with
  | nil =>
    have hend : close ++ ['\x7d'] ∈ sign '\x7d' := Language.append_mem_mul hclose rfl
    exact hend
  | cons kj kjs ih =>
    obtain ⟨hj, hjs⟩ := List.forall_mem_cons.mp hw
    have hfield := fieldText_mem_fieldTexts hgap hbehind hj
    simpa [memberTexts] using cons_mem_sign_mul (c := ',') (Language.append_mem_mul hfield (ih hjs))

theorem mem_texts_object {kj : String × Json} {kjs : List (String × Json)} (hgap : gap ∈ blanks)
    (hbehind : behind ∈ blanks) (hclose : close ∈ blanks)
    (hw : ∀ i ∈ kj :: kjs, w i.2 ∈ texts i.2) :
    '\x7b' :: (fieldText gap behind w kj ++
        kjs.flatMap (fun kj => ',' :: fieldText gap behind w kj) ++ (close ++ ['\x7d'])) ∈
      texts (object (kj :: kjs)) := by
  obtain ⟨hj, hjs⟩ := List.forall_mem_cons.mp hw
  have hmore := Language.append_mem_mul (fieldText_mem_fieldTexts hgap hbehind hj)
    (flatMap_mem_memberTexts hgap hbehind hclose hjs)
  rw [texts, List.append_assoc]
  exact mem_word_mul_iff.mpr ⟨_, hmore, rfl⟩

end

theorem spreadItems_eq (depth : ℕ) (js : List Json) :
    spreadItems depth js = js.flatMap fun j => ',' :: (newLine depth ++ spread depth j) := by
  induction js with
  | nil => rfl
  | cons j js ih => simp [spreadItems, ih]

theorem spreadFields_eq (depth : ℕ) (kjs : List (String × Json)) :
    spreadFields depth kjs =
      kjs.flatMap fun kj => ',' :: fieldText (newLine depth) [' '] (spread depth) kj := by
  induction kjs with
  | nil => rfl
  | cons kj kjs ih => simp [spreadFields, fieldText, ih]

theorem newLine_mem_blanks (depth : ℕ) : newLine depth ∈ blanks := by
  simp [mem_blanks_iff, newLine, isBlank]

theorem spread_mem_texts (depth : ℕ) (j : Json) : spread depth j ∈ texts j := by
  induction j using induct generalizing depth with
  | string s => simpa [spread, texts] using quote_mem_quotedTexts s
  | number n => simp [spread, texts, mem_word_iff]
  | boolean b => simp [spread, texts, mem_word_iff]
  | array js ih =>
    cases js with
    | nil =>
      rw [spread, texts]
      exact mem_word_mul_iff.mpr ⟨_, mem_blanks_mul (l := word [']']) rfl, rfl⟩
    | cons j js =>
      have hgap := newLine_mem_blanks (depth + 1)
      have hclose := newLine_mem_blanks depth
      simpa [spread, spreadItems_eq] using
        mem_texts_array hgap hclose fun i hi => ih i hi (depth + 1)
  | object kjs ih =>
    cases kjs with
    | nil =>
      rw [spread, texts]
      exact mem_word_mul_iff.mpr ⟨_, mem_blanks_mul (l := word ['\x7d']) rfl, rfl⟩
    | cons kj kjs =>
      have hgap := newLine_mem_blanks (depth + 1)
      have hclose := newLine_mem_blanks depth
      simpa [spread, spreadFields_eq, fieldText] using
        mem_texts_object hgap (rfl : [' '] ∈ blanks) hclose fun i hi => ih i hi (depth + 1)

theorem pretty_isText (j : Json) : IsText j.pretty j := by
  have htext := Language.append_mem_mul (mem_blanks_mul (spread_mem_texts 0 j)) nil_mem_blanks
  simpa [IsText, pretty] using htext

/-! #### A text on one line -/

def IsPrintable (cs : List Char) : Prop := ∀ c ∈ cs, 32 ≤ c.toNat

@[simp] theorem isPrintable_nil : IsPrintable [] := by simp [IsPrintable]

@[simp] theorem isPrintable_cons {c : Char} {cs : List Char} :
    IsPrintable (c :: cs) ↔ 32 ≤ c.toNat ∧ IsPrintable cs := List.forall_mem_cons

@[simp] theorem isPrintable_append {xs ys : List Char} :
    IsPrintable (xs ++ ys) ↔ IsPrintable xs ∧ IsPrintable ys := List.forall_mem_append

@[simp] theorem isPrintable_flatMap {α : Type} {xs : List α} {f : α → List Char} :
    IsPrintable (xs.flatMap f) ↔ ∀ x ∈ xs, IsPrintable (f x) := by
  simp only [IsPrintable, List.mem_flatMap, forall_exists_index, and_imp]
  exact ⟨fun h x hx c => h c x hx, fun h c x hx => h x hx c⟩

end Json
end Report
end CastLint
