import CastLint.Proofs.DirectiveLines
import CastLint.Proofs.LineNumbers
import Mathlib.Data.List.Infix

/-! Directives behind code. The comment of a line starts at its first two slashes, whether they stand
in code or not. A directive behind code says what it says alone exactly if no two slashes meet in
front of it, so a string literal with an address in it hides the directive; and a string literal that
reads like a directive is one if a blank stands behind its keyword. -/

namespace CastLint

namespace Text

theorem IsTrimmed.mem {text core : List Char} (h : IsTrimmed text core) {c : Char} (hc : c ∈ text)
    (hblank : isBlank c = false) : c ∈ core := by
  obtain ⟨⟨left, right, rfl, hleft, hright⟩, -, -⟩ := h
  simp only [List.mem_append] at hc
  obtain (hc | hc) | hc := hc
  · simp [hleft c hc] at hblank
  · exact hc
  · simp [hright c hc] at hblank

theorem IsTrimmed.exists_left {text core : List Char} (h : IsTrimmed text core)
    (hlast : ∀ c ∈ text.getLast?, isBlank c = false) :
    ∃ left, text = left ++ core ∧ ∀ c ∈ left, isBlank c = true := by
  obtain ⟨⟨left, right, rfl, hleft, hright⟩, -, -⟩ := h
  cases right using List.reverseRecOn with
  | nil => exact ⟨left, by rw [List.append_nil], hleft⟩
  | append_singleton right c =>
    have hc : isBlank c = false := hlast c (by simp [← List.append_assoc])
    simp [hright c (by simp)] at hc

end Text

namespace Source

open Text (isBlank trim IsTrimmed isTrimmed_iff isTrimmed_trim numbered?)

/-! ### Two slashes -/

/-- Two slashes that meet do so on one side of a character that is no slash. -/
theorem slashes_infix_append_cons {c : Char} (hc : c ≠ '/') (xs ys : List Char) :
    ['/', '/'] <:+: xs ++ c :: ys ↔ ['/', '/'] <:+: xs ∨ ['/', '/'] <:+: ys := by
  induction xs with
  | nil =>
    have hfirst : ¬['/', '/'] <+: c :: ys := fun h => hc (List.cons_prefix_cons.mp h).1.symm
    simp [List.infix_cons_iff, hfirst]
  | cons x xs ih =>
    have hfirst : ['/', '/'] <+: x :: (xs ++ c :: ys) ↔ ['/', '/'] <+: x :: xs := by
      cases xs with
      | nil => simp [List.cons_prefix_cons, hc.symm]
      | cons x' xs => simp [List.cons_prefix_cons]
    rw [List.cons_append, List.infix_cons_iff, List.infix_cons_iff, ih, hfirst, or_assoc]

theorem comment?_isSome_iff {cs : List Char} :
    (comment? cs).isSome = true ↔ ['/', '/'] <:+: cs := by
  induction cs using comment?.induct with
  | case1 cs => simpa [comment?] using ⟨[], cs, rfl⟩
  | case2 c cs hno ih =>
    have hfirst : ¬['/', '/'] <+: c :: cs := by
      rintro ⟨rest, hrest⟩
      obtain ⟨rfl, rfl⟩ := List.cons.inj hrest
      exact hno rest rfl rfl
    have hskip : comment? (c :: cs) = comment? cs := by
      rw [comment?]
      exact hno
    rw [hskip, ih, List.infix_cons_iff, or_iff_right hfirst]
  | case3 => simp [comment?]

theorem comment?_append_of_eq_some {cs comment : List Char} (h : comment? cs = some comment)
    (more : List Char) : comment? (cs ++ more) = some (comment ++ more) := by
  induction cs using comment?.induct with
  | case1 cs =>
    obtain rfl := Option.some.inj h
    rfl
  | case2 c cs hno ih =>
    have hskip : comment? (c :: cs) = comment? cs := by
      rw [comment?]
      exact hno
    rw [hskip] at h
    have hne : cs ≠ [] := by
      rintro rfl
      simp [comment?] at h
    obtain ⟨d, ds, rfl⟩ := List.exists_cons_of_ne_nil hne
    rw [List.cons_append, comment?, ih h]
    rintro rest rfl hrest
    obtain ⟨rfl, -⟩ := List.cons.inj hrest
    exact hno ds rfl rfl
  | case3 => simp [comment?] at h

theorem comment?_of_apart {front : List Char} (h : ¬['/', '/'] <:+: front ++ ['/'])
    (rest : List Char) : comment? (front ++ '/' :: '/' :: rest) = some rest := by
  induction front with
  | nil => rfl
  | cons c front ih =>
    rw [List.cons_append, List.infix_cons_iff, not_or] at h
    obtain ⟨hfirst, hmore⟩ := h
    rw [List.cons_append, comment?, ih hmore]
    rintro ds rfl hds
    apply hfirst
    cases front with
    | nil => simp
    | cons d front =>
      obtain ⟨rfl, -⟩ := List.cons.inj hds
      simp [List.cons_prefix_cons]

/-! ### One line -/

theorem switchesOff_congr {keyword : String} {line other : List Char} {refs : List String}
    (h : comment? line = comment? other) :
    SwitchesOff keyword line refs ↔ SwitchesOff keyword other refs := by
  rw [switchesOff_iff, switchesOff_iff, h]

theorem not_switchesOff_nil (keyword : String) (refs : List String) :
    ¬SwitchesOff keyword [] refs := by
  rintro ⟨comment, -, -, ⟨front, hline, -⟩, -⟩
  simp at hline

theorem numbered?_of_notMem {line : List Char} (h : '\n' ∉ line) :
    numbered? line 1 = if line = [] then none else some line := by
  rw [numbered?, if_neg one_ne_zero, Text.lines_of_notMem h]
  by_cases hline : line = [] <;> simp [hline]

theorem isDisabled_of_notMem {line : List Char} (h : '\n' ∉ line) {refs : List String} :
    (Directives.ofText line).isDisabled 1 refs = true ↔ SwitchesOff thisLineKeyword line refs := by
  have hbefore : numbered? line (1 - 1) = none := rfl
  rw [Directives.isDisabled_ofText_eq_true_iff, hbefore, numbered?_of_notMem h]
  by_cases hline : line = []
  · simp [hline, not_switchesOff_nil]
  · simp [hline]

theorem Directives.isEmpty_iff_size {ds : Directives} : ds.isEmpty = true ↔ ds.size = 0 := by
  rw [isEmpty, size, List.isEmpty_iff, List.length_eq_zero_iff]

theorem isEmpty_of_notMem {line : List Char} (h : '\n' ∉ line) :
    (Directives.ofText line).isEmpty = true ↔ directive? 1 line = none := by
  have hone : directivesFrom 1 (Text.lines line) = (directive? 1 line).toList := by
    rw [Text.lines_of_notMem h]
    by_cases hline : line = []
    · subst hline
      rfl
    · simp [hline, directivesFrom]
  rw [Directives.isEmpty_iff_size, Directives.ofText, Directives.size_foldl_add, hone]
  cases directive? 1 line <;> simp

theorem exists_item {list : List Char} {c : Char} (hc : c ∈ list) (hcomma : c ≠ ',') :
    ∃ item ∈ list.splitOn ',', c ∈ item := by
  induction list with
  | nil => simp at hc
  | cons d list ih =>
    obtain ⟨first, more, hsplit⟩ := List.exists_cons_of_ne_nil (List.splitOn_ne_nil ',' list)
    rw [List.splitOn_cons_eq_if_modifyHead, hsplit]
    rw [hsplit] at ih
    by_cases hd : d = ','
    · obtain rfl | hmem := List.mem_cons.mp hc
      · exact absurd hd hcomma
      · obtain ⟨item, hitem, hin⟩ := ih hmem
        exact ⟨item, by simpa [hd] using Or.inr (List.mem_cons.mp hitem), hin⟩
    · obtain rfl | hmem := List.mem_cons.mp hc
      · exact ⟨c :: first, by simp [hd], by simp⟩
      · obtain ⟨item, hitem, hin⟩ := ih hmem
        obtain rfl | hitem := List.mem_cons.mp hitem
        · exact ⟨d :: item, by simp [hd], by simp [hin]⟩
        · exact ⟨item, by simp [hd, hitem], hin⟩

theorem exists_names {list : List Char} {c : Char} (hc : c ∈ list) (hcomma : c ≠ ',')
    (hblank : isBlank c = false) : ∃ rule, Names list rule := by
  obtain ⟨item, hitem, hmem⟩ := exists_item hc hcomma
  have htrim := isTrimmed_trim item
  refine ⟨String.ofList (trim item), ?_, item, hitem, by simpa using htrim⟩
  intro hnil
  have hcore : trim item = [] := by simpa using congrArg String.toList hnil
  simpa [hcore] using htrim.mem hmem hblank

/-! ### Code in front of a directive -/

/-- A line with two slashes that meet in front of those of a directive does not switch all rules off:
its comment starts earlier, so the slashes of the directive stand in it. -/
theorem not_switchesOff_of_slashes {front : List Char} (h : ['/', '/'] <:+: front ++ ['/'])
    (rest : List Char) : ¬SwitchesOff thisLineKeyword (front ++ '/' :: '/' :: rest) [] := by
  have hslash : isBlank '/' = false := by decide
  obtain ⟨early, hearly⟩ := Option.isSome_iff_exists.mp (comment?_isSome_iff.mpr h)
  have hline : comment? (front ++ '/' :: '/' :: rest) = some (early ++ '/' :: rest) := by
    have hmore := comment?_append_of_eq_some hearly ('/' :: rest)
    rwa [List.append_assoc] at hmore
  rintro ⟨comment, body, list, hcomment, htrim, hannounces, hrefs⟩
  obtain rfl := Option.some.inj (hline.symm.trans (comment?_eq_some_iff.mpr hcomment))
  have hbody : '/' ∈ body := htrim.mem (by simp) hslash
  have hkeyword : '/' ∉ thisLineKeyword.toList := by decide
  obtain ⟨rfl, -⟩ | ⟨blank, hblank, rfl⟩ := hannounces
  · exact hkeyword hbody
  · have hne : '/' ≠ blank := by
      rintro rfl
      simp [hslash] at hblank
    have hlist : '/' ∈ list := by simpa [hkeyword, hne] using hbody
    obtain ⟨rule, hrule⟩ := exists_names hlist (by decide) hslash
    obtain hnone | ⟨ref, href, -⟩ := hrefs
    · exact hnone rule hrule
    · simp at href

/-- Behind code on its line a directive says what it says alone exactly if no two slashes meet in
front of those of its comment. -/
theorem isDisabled_behind_iff {code : List Char} (hcode : '\n' ∉ code) :
    (∀ body list, Announces thisLineKeyword body list → '\n' ∉ body → ∀ refs,
      (Directives.ofText (code ++ "// ".toList ++ body)).isDisabled 1 refs =
        (Directives.ofText ("// ".toList ++ body)).isDisabled 1 refs) ↔
      ¬['/', '/'] <:+: code ++ ['/'] := by
  have hslashes : "// ".toList = ['/', '/', ' '] := by decide
  have hboth : ∀ body refs, '\n' ∉ body →
      ((Directives.ofText (code ++ "// ".toList ++ body)).isDisabled 1 refs = true ↔
        SwitchesOff thisLineKeyword (code ++ '/' :: '/' :: ' ' :: body) refs) ∧
      ((Directives.ofText ("// ".toList ++ body)).isDisabled 1 refs = true ↔
        SwitchesOff thisLineKeyword ('/' :: '/' :: ' ' :: body) refs) := by
    intro body refs hbody
    rw [hslashes, List.append_assoc]
    exact ⟨isDisabled_of_notMem (by simp [hcode, hbody]), isDisabled_of_notMem (by simp [hbody])⟩
  constructor
  · intro hsame hmeet
    have hall : SwitchesOff thisLineKeyword ('/' :: '/' :: ' ' :: thisLineKeyword.toList) [] :=
      switchesOff_iff.mpr ⟨_, [], [], rfl, by decide, rfl, Or.inl rfl⟩
    have hbare := hsame thisLineKeyword.toList [] (Or.inl ⟨rfl, rfl⟩) (by decide) []
    obtain ⟨hbehind, halone⟩ := hboth thisLineKeyword.toList [] (by decide)
    rw [halone.mpr hall, hbehind] at hbare
    exact not_switchesOff_of_slashes hmeet _ hbare
  · intro hapart body list _ hbody refs
    obtain ⟨hbehind, halone⟩ := hboth body refs hbody
    rw [Bool.eq_iff_iff, hbehind, halone]
    exact switchesOff_congr (comment?_of_apart hapart (' ' :: body))

/-! ### A string literal in front of a directive -/

def quotedCall (u : List Char) : List Char := "f(\"".toList ++ u ++ "\");".toList

/-- A directive behind the call with a text says what it says alone, and the call alone is none. -/
structure ReadsBehind (u : List Char) : Prop where
  same : ∀ body list, Announces thisLineKeyword body list → '\n' ∉ body → ∀ refs,
    (Directives.ofText (quotedCall u ++ " // ".toList ++ body)).isDisabled 1 refs =
      (Directives.ofText ("// ".toList ++ body)).isDisabled 1 refs
  alone : (Directives.ofText (quotedCall u)).isEmpty = true

def Opens (text : List Char) : Prop :=
  ∃ left keyword blank more, (∀ c ∈ left, isBlank c = true) ∧
    (keyword = nextLineKeyword ∨ keyword = thisLineKeyword) ∧ isBlank blank = true ∧
    text = left ++ keyword.toList ++ blank :: more

theorem quotedCall_eq (u : List Char) :
    quotedCall u = 'f' :: '(' :: '"' :: (u ++ ['"', ')', ';']) := by
  have hfront : "f(\"".toList = ['f', '(', '"'] := by decide
  have hback : "\");".toList = ['"', ')', ';'] := by decide
  rw [quotedCall, hfront, hback]
  rfl

theorem slashes_infix_quotedCall (u : List Char) :
    ['/', '/'] <:+: quotedCall u ++ [' '] ++ ['/'] ↔ ['/', '/'] <:+: u := by
  have hfront : ¬['/', '/'] <:+: ['f', '('] := by decide
  have hback : ¬['/', '/'] <:+: [')', ';', ' ', '/'] := by decide
  have hsplit : quotedCall u ++ [' '] ++ ['/'] =
      ['f', '('] ++ '"' :: (u ++ '"' :: [')', ';', ' ', '/']) := by
    simp [quotedCall_eq]
  rw [hsplit, slashes_infix_append_cons (by decide), slashes_infix_append_cons (by decide),
    or_iff_right hfront, or_iff_left hback]

theorem comment?_quotedCall (u : List Char) :
    comment? (quotedCall u) = (comment? u).map (· ++ ['"', ')', ';']) := by
  have hfront : comment? (quotedCall u) = comment? (u ++ ['"', ')', ';']) := by
    rw [quotedCall_eq]
    simp [comment?]
  rw [hfront]
  cases hu : comment? u with
  | some comment => exact comment?_append_of_eq_some hu _
  | none =>
    have hno : ¬['/', '/'] <:+: u := by
      rw [← comment?_isSome_iff, hu]
      exact Bool.false_ne_true
    have hback : ¬['/', '/'] <:+: [')', ';'] := by decide
    rw [Option.map_none, ← Option.not_isSome_iff_eq_none, comment?_isSome_iff,
      slashes_infix_append_cons (by decide)]
    exact not_or.mpr ⟨hno, hback⟩

theorem exists_announces_iff {keyword : String} {body : List Char} :
    (∃ list, Announces keyword body list) ↔
      ∃ tail, body = keyword.toList ++ tail ∧
        (tail = [] ∨ ∃ blank list, isBlank blank = true ∧ tail = blank :: list) := by
  constructor
  · rintro ⟨list, ⟨hbody, -⟩ | ⟨blank, hblank, hbody⟩⟩
    · exact ⟨[], by rw [hbody, List.append_nil], Or.inl rfl⟩
    · exact ⟨blank :: list, hbody, Or.inr ⟨blank, list, hblank, rfl⟩⟩
  · rintro ⟨tail, hbody, rfl | ⟨blank, list, hblank, rfl⟩⟩
    · exact ⟨[], Or.inl ⟨by rw [hbody, List.append_nil], rfl⟩⟩
    · exact ⟨list, Or.inr ⟨blank, hblank, hbody⟩⟩

theorem directive?_isSome_iff {n : ℕ} {line : List Char} :
    (directive? n line).isSome = true ↔
      ∃ comment, comment? line = some comment ∧ ∃ body keyword list, IsTrimmed comment body ∧
        (keyword = nextLineKeyword ∨ keyword = thisLineKeyword) ∧ Announces keyword body list := by
  simp only [Option.isSome_iff_exists, directive?_eq_some_iff, ruleList?_eq_some_iff, isTrimmed_iff]
  constructor
  · rintro ⟨d, comment, tail, hcomment, ⟨htail, -⟩, ⟨-, hbody⟩ | ⟨-, hbody⟩⟩
    · obtain ⟨list, hannounces⟩ := exists_announces_iff.mpr ⟨tail, hbody, htail⟩
      exact ⟨comment, hcomment, _, _, list, rfl, Or.inl rfl, hannounces⟩
    · obtain ⟨list, hannounces⟩ := exists_announces_iff.mpr ⟨tail, hbody, htail⟩
      exact ⟨comment, hcomment, _, _, list, rfl, Or.inr rfl, hannounces⟩
  · rintro ⟨comment, hcomment, body, keyword, list, rfl, hkeyword, hannounces⟩
    obtain ⟨tail, hbody, htail⟩ := exists_announces_iff.mp ⟨list, hannounces⟩
    obtain rfl | rfl := hkeyword
    · exact ⟨⟨n + 1, _⟩, comment, tail, hcomment, ⟨htail, rfl⟩, Or.inl ⟨rfl, hbody⟩⟩
    · exact ⟨⟨n, _⟩, comment, tail, hcomment, ⟨htail, rfl⟩, Or.inr ⟨rfl, hbody⟩⟩

theorem exists_eq_append_cons {α : Type} {xs ends front more : List α} {a : α}
    (h : xs ++ ends = front ++ a :: more) (ha : a ∉ ends) : ∃ rest, xs = front ++ a :: rest := by
  obtain ⟨beyond, -, rfl⟩ | ⟨rest, rfl, hrest⟩ := List.append_eq_append_iff.mp h
  · simp at ha
  · cases rest with
    | nil =>
      obtain rfl : ends = a :: more := hrest.symm
      simp at ha
    | cons b rest =>
      obtain ⟨rfl, -⟩ := List.cons.inj hrest
      exact ⟨rest, rfl⟩

/-- The comment in a text between quotes goes on up to the end of the call. Together they announce a
list only if the text holds the keyword and the blank behind it. -/
theorem announces_append_iff_opens (text : List Char) :
    (∃ body keyword list, IsTrimmed (text ++ ['"', ')', ';']) body ∧
      (keyword = nextLineKeyword ∨ keyword = thisLineKeyword) ∧ Announces keyword body list) ↔
      Opens text := by
  have hlast : ∀ c ∈ (text ++ ['"', ')', ';']).getLast?, isBlank c = false := by
    intro c hc
    obtain rfl : c = ';' := by simpa using hc.symm
    decide
  constructor
  · rintro ⟨body, keyword, list, htrim, hkeyword, hannounces⟩
    obtain ⟨left, heq, hleft⟩ := htrim.exists_left hlast
    obtain ⟨rfl, -⟩ | ⟨blank, hblank, rfl⟩ := hannounces
    · -- a keyword ends with a letter and the call with a semicolon
      have hend := congrArg List.getLast? heq
      obtain rfl | rfl := hkeyword <;>
      · rw [List.getLast?_append_of_ne_nil _ (by simp),
          List.getLast?_append_of_ne_nil _ (by decide)] at hend
        exact absurd hend (by decide)
    · have hnot : blank ∉ ['"', ')', ';'] := by
        intro hmem
        have hends : ['"', ')', ';'].all (fun c => !isBlank c) = true := by decide
        simpa [hblank] using List.all_eq_true.mp hends blank hmem
      rw [← List.append_assoc] at heq
      obtain ⟨more, hmore⟩ := exists_eq_append_cons heq hnot
      exact ⟨left, keyword, blank, more, hleft, hkeyword, hblank, hmore⟩
  · rintro ⟨left, keyword, blank, more, hleft, hkeyword, hblank, rfl⟩
    have hhead : keyword.toList.head? = some 'm' := by
      obtain rfl | rfl := hkeyword <;> decide
    refine ⟨keyword.toList ++ blank :: (more ++ ['"', ')', ';']), keyword, more ++ ['"', ')', ';'],
      ⟨⟨left, [], by simp, hleft, by simp⟩, ?_, ?_⟩, hkeyword, Or.inr ⟨blank, hblank, rfl⟩⟩
    · intro c hc
      rw [List.head?_append, hhead] at hc
      obtain rfl : c = 'm' := by simpa using hc.symm
      decide
    · intro c hc
      exact hlast c (by simpa using hc)

/-- A directive behind a call with a string literal works exactly if no two slashes meet in the
literal. The call alone is read as a directive exactly if, behind the first two slashes of the
literal, it goes on with a keyword and a blank. -/
theorem readsBehind_iff {u : List Char} (hu : '\n' ∉ u) :
    (ReadsBehind u ↔ ¬['/', '/'] <:+: u) ∧
    ((Directives.ofText (quotedCall u)).isEmpty = true ↔
      ∀ comment, IsComment u comment → ¬Opens comment) := by
  have hcall : '\n' ∉ quotedCall u := by simp [quotedCall_eq, hu]
  have halone : (Directives.ofText (quotedCall u)).isEmpty = true ↔
      ∀ comment, IsComment u comment → ¬Opens comment := by
    rw [isEmpty_of_notMem hcall, ← Option.not_isSome_iff_eq_none, directive?_isSome_iff,
      comment?_quotedCall]
    simp only [Option.map_eq_some_iff, exists_exists_and_eq_and, announces_append_iff_opens,
      comment?_eq_some_iff, not_exists, not_and]
  have hline : '\n' ∉ quotedCall u ++ [' '] := by simp [hcall]
  have hbehind := isDisabled_behind_iff hline
  have hslashes : " // ".toList = [' '] ++ "// ".toList := by decide
  rw [slashes_infix_quotedCall] at hbehind
  refine ⟨⟨fun h => hbehind.mp ?_, fun hapart => ⟨?_, halone.mpr ?_⟩⟩, halone⟩
  · simpa [hslashes] using h.same
  · simpa [hslashes] using hbehind.mpr hapart
  · intro comment hcomment _
    have hsome := comment?_eq_some_iff.mpr hcomment
    exact hapart (comment?_isSome_iff.mp (by rw [hsome]; rfl))

/-- An address in a string literal, a path without one, and a literal that reads like a directive. -/
theorem addresses_readsBehind :
    '\n' ∉ "http://x/y".toList ∧ ¬ReadsBehind "http://x/y".toList ∧
    (Directives.ofText (quotedCall "http://x/y".toList)).isEmpty = true ∧
    '\n' ∉ "/x/y/".toList ∧ ReadsBehind "/x/y/".toList ∧
    '\n' ∉ "// mocklint-disable-line J001, ".toList ∧
    (Directives.ofText (quotedCall "// mocklint-disable-line J001, ".toList)).isEmpty = false := by
  have haddress : '\n' ∉ "http://x/y".toList := by decide
  have hpath : '\n' ∉ "/x/y/".toList := by decide
  have hliteral : '\n' ∉ "// mocklint-disable-line J001, ".toList := by decide
  refine ⟨haddress, ?_, ?_, hpath, ?_, hliteral, ?_⟩
  · rw [(readsBehind_iff haddress).1]
    decide
  · rw [isEmpty_of_notMem (by decide)]
    decide
  · rw [(readsBehind_iff hpath).1]
    decide
  · rw [← Bool.not_eq_true, (readsBehind_iff hliteral).2]
    intro hnone
    refine hnone _ (comment?_eq_some_iff.mp rfl) ⟨[' '], thisLineKeyword, ' ', "J001, ".toList, ?_⟩
    exact ⟨List.forall_mem_singleton.mpr (by decide), Or.inr rfl, by decide, by decide⟩

/-- Behind an address in a string literal a directive for the whole line is not seen, and in front
of the end of a literal one is seen that is none. -/
theorem address_hides_directive :
    (Directives.ofText "f(\"http://x\"); // mocklint-disable-line".toList).isDisabled 1 ["J001"] =
      false ∧
    (Directives.ofText "// mocklint-disable-line".toList).isDisabled 1 ["J001"] = true ∧
    (Directives.ofText "f(\"// mocklint-disable-line J001, \");".toList).isEmpty = false ∧
    ¬ReadsBehind "http://x".toList := by
  refine ⟨by decide +kernel, by decide, by decide +kernel, fun h => ?_⟩
  have hsame := h.same thisLineKeyword.toList [] (Or.inl ⟨rfl, rfl⟩) (by decide) ["J001"]
  revert hsame
  decide +kernel

end Source
end CastLint
