import CastLint.Proofs.Suppression
import Mathlib.Data.Finset.Card
import Mathlib.Data.List.DropRight

/-! Directives and the lines that they are for. Directives add up: a line is switched off by each
one that is for it, in whatever order they were added. In a text only two lines can switch a line
off, the line itself and the one in front of it, each with a keyword of its own and what stands
behind that. -/

namespace CastLint

namespace Text

structure IsTrimmed (text core : List Char) : Prop where
  around : ∃ left right, text = left ++ core ++ right ∧
    (∀ c ∈ left, isBlank c = true) ∧ ∀ c ∈ right, isBlank c = true
  head : ∀ c ∈ core.head?, isBlank c = false
  last : ∀ c ∈ core.getLast?, isBlank c = false

theorem dropWhile_append_of_all {left rest : List Char} (h : ∀ c ∈ left, isBlank c = true) :
    (left ++ rest).dropWhile isBlank = rest.dropWhile isBlank := by
  rw [List.dropWhile_append, List.dropWhile_eq_nil_iff.mpr h]
  rfl

theorem dropWhile_append_of_head {core right : List Char} (hcore : core ≠ [])
    (h : ∀ c ∈ core.head?, isBlank c = false) :
    (core ++ right).dropWhile isBlank = core ++ right := by
  obtain ⟨c, cs, rfl⟩ := List.exists_cons_of_ne_nil hcore
  have hc : isBlank c = false := h c rfl
  simp [hc]

theorem IsTrimmed.trim_eq {text core : List Char} (h : IsTrimmed text core) : trim text = core := by
  obtain ⟨⟨left, right, rfl, hleft, hright⟩, hhead, hlast⟩ := h
  have hright' : ∀ c ∈ right.reverse, isBlank c = true := by simpa using hright
  rw [trim, List.append_assoc, dropWhile_append_of_all hleft]
  by_cases hcore : core = []
  · rw [hcore, List.nil_append, List.dropWhile_eq_nil_iff.mpr hright]
    rfl
  · have hback : ∀ c ∈ core.reverse.head?, isBlank c = false := by
      simpa [List.head?_reverse] using hlast
    have hkeep : (core.reverse ++ []).dropWhile isBlank = core.reverse ++ [] :=
      dropWhile_append_of_head (by simpa using hcore) hback
    rw [List.append_nil] at hkeep
    rw [dropWhile_append_of_head hcore hhead, List.reverse_append, dropWhile_append_of_all hright',
      hkeep, List.reverse_reverse]

theorem isTrimmed_trim (text : List Char) : IsTrimmed text (trim text) := by
  have htrim : trim text = (text.dropWhile isBlank).rdropWhile isBlank := rfl
  have hback : trim text ++ (text.dropWhile isBlank).rtakeWhile isBlank =
      text.dropWhile isBlank := List.rdropWhile_append_rtakeWhile
  refine ⟨⟨text.takeWhile isBlank, (text.dropWhile isBlank).rtakeWhile isBlank, ?_, ?_, ?_⟩, ?_, ?_⟩
  · rw [List.append_assoc, hback, List.takeWhile_append_dropWhile]
  · exact fun c hc => List.mem_takeWhile_imp hc
  · exact fun c hc => List.mem_rtakeWhile_imp hc
  · intro c hc
    have hhead : (text.dropWhile isBlank).head? = some c := by
      rw [← hback, List.head?_append, Option.mem_def.mp hc]
      rfl
    have hno := List.head?_dropWhile_not isBlank text
    rwa [hhead] at hno
  · intro c hc
    have hne : (text.dropWhile isBlank).rdropWhile isBlank ≠ [] := by
      rintro hnil
      simp [htrim, hnil] at hc
    rw [htrim, List.getLast?_eq_some_getLast hne] at hc
    obtain rfl := Option.some.inj hc
    simpa using List.rdropWhile_last_not isBlank _ hne

theorem isTrimmed_iff {text core : List Char} : IsTrimmed text core ↔ trim text = core := by
  constructor
  · exact IsTrimmed.trim_eq
  · rintro rfl
    exact isTrimmed_trim text

/-- The line of a text with a number. Lines count from one. -/
def numbered? (text : List Char) (n : ℕ) : Option (List Char) :=
  if n = 0 then none else (lines text)[n - 1]?

theorem numbered?_eq_some_iff {text line : List Char} {n : ℕ} :
    numbered? text n = some line ↔ ∃ i, n = i + 1 ∧ (lines text)[i]? = some line := by
  cases n with
  | zero => simp [numbered?]
  | succ i => simp [numbered?]

end Text

namespace Source

open Text (isBlank trim IsTrimmed isTrimmed_iff numbered? numbered?_eq_some_iff)

namespace Directives

/-! ### Directives that are added -/

/-- There is one entry for each of the lines, and none for any other one. -/
structure Tracks (ds : Directives) (lines : List ℕ) : Prop where
  nodup : (ds.entries.map (·.line)).Nodup
  mem_iff : ∀ line, line ∈ ds.entries.map (·.line) ↔ line ∈ lines

theorem map_line_insert (d : Directive) (entries : List Directive) :
    (insert d entries).map (·.line) =
      if d.line ∈ entries.map (·.line) then entries.map (·.line)
      else entries.map (·.line) ++ [d.line] := by
  induction entries with
  | nil => rfl
  | cons e entries ih =>
    by_cases hsame : e.line = d.line
    · simp [insert, hsame]
    · simp only [insert, hsame, if_false, List.map_cons, ih, List.mem_cons, Ne.symm hsame, false_or]
      split <;> rfl

theorem Tracks.add {ds : Directives} {lines : List ℕ} (h : ds.Tracks lines) (d : Directive) :
    (ds.add d).Tracks (d.line :: lines) := by
  have hlines := map_line_insert d ds.entries
  by_cases hmem : d.line ∈ ds.entries.map (·.line)
  · rw [if_pos hmem] at hlines
    refine ⟨?_, fun line => ?_⟩
    · rw [Directives.add, hlines]
      exact h.nodup
    · rw [Directives.add, hlines, h.mem_iff, List.mem_cons]
      refine ⟨Or.inr, ?_⟩
      rintro (rfl | hline)
      · exact (h.mem_iff d.line).mp hmem
      · exact hline
  · rw [if_neg hmem] at hlines
    refine ⟨?_, fun line => ?_⟩
    · rw [Directives.add, hlines]
      exact List.nodup_append.mpr ⟨h.nodup, by simp, fun a ha b hb => by
        rw [List.mem_singleton.mp hb]
        exact fun heq => hmem (heq ▸ ha)⟩
    · rw [Directives.add, hlines, List.mem_append, h.mem_iff, List.mem_singleton, List.mem_cons]
      exact or_comm

theorem Tracks.foldl_add {ds : Directives} {lines : List ℕ} (h : ds.Tracks lines)
    (added : List Directive) : (added.foldl Directives.add ds).Tracks
      ((added.map (·.line)).reverse ++ lines) := by
  induction added generalizing ds lines with
  | nil => exact h
  | cons d added ih =>
    have hrest := ih (h.add d)
    simpa using hrest

theorem Tracks.size_eq {ds : Directives} {lines : List ℕ} (h : ds.Tracks lines) :
    ds.size = lines.toFinset.card := by
  have hsame : (ds.entries.map (·.line)).toFinset = lines.toFinset := by
    ext line
    simpa using h.mem_iff line
  rw [← hsame, List.toFinset_card_of_nodup h.nodup, List.length_map, size]

theorem size_foldl_add (added : List Directive) :
    (added.foldl add {}).size = (added.map (·.line)).toFinset.card := by
  have hnone : Tracks {} [] := ⟨List.nodup_nil, fun _ => Iff.rfl⟩
  rw [(hnone.foldl_add added).size_eq, List.append_nil, List.toFinset_reverse]

theorem isDisabled_foldl_add_iff {added : List Directive} {line : ℕ} {refs : List String} :
    (added.foldl add {}).isDisabled line refs = true ↔
      ∃ d ∈ added, d.line = line ∧ (d.rules = [] ∨ ∃ ref ∈ refs, ref ∈ d.rules) := by
  have hnone : ({} : Directives).isDisabled line refs = false := rfl
  rw [isDisabled_foldl_add, hnone, Bool.false_or, List.any_eq_true]
  simp only [Bool.and_eq_true, decide_eq_true_eq, Directive.disablesAny_iff]

/-- What directives say once they are added one by one. A line is switched off for a rule by any of
them that is for the line and lists the rule or no rule at all, and there are as many as lines that
they are for. Neither depends on the order, and one more directive switches nothing on. -/
theorem added_answers (added : List Directive) :
    (∀ line refs, (added.foldl add {}).isDisabled line refs = true ↔
      ∃ d ∈ added, d.line = line ∧ (d.rules = [] ∨ ∃ ref ∈ refs, ref ∈ d.rules)) ∧
    (added.foldl add {}).size = (added.map (·.line)).toFinset.card ∧
    (∀ others : List Directive, others.Perm added →
      (∀ line refs, (others.foldl add {}).isDisabled line refs =
        (added.foldl add {}).isDisabled line refs) ∧
      (others.foldl add {}).size = (added.foldl add {}).size) ∧
    ∀ d line refs, (added.foldl add {}).isDisabled line refs = true →
      ((added.foldl add {}).add d).isDisabled line refs = true := by
  refine ⟨fun line refs => isDisabled_foldl_add_iff, size_foldl_add added, ?_, ?_⟩
  · intro others hperm
    constructor
    · intro line refs
      rw [Bool.eq_iff_iff, isDisabled_foldl_add_iff, isDisabled_foldl_add_iff]
      simp only [hperm.mem_iff]
    · rw [size_foldl_add, size_foldl_add, List.toFinset_eq_of_perm _ _ (hperm.map _)]
  · intro d line refs hoff
    have hmore := isDisabled_insert d (added.foldl add {}).entries line refs
    rw [add, hmore, hoff, Bool.true_or]

/-- A directive for all rules between two with lists for the same line, and one for another line. -/
def mixedDirectives : List Directive :=
  [⟨3, ["J001"]⟩, ⟨3, []⟩, ⟨3, ["PARSE", "J001"]⟩, ⟨5, ["J001", "PARSE"]⟩]

theorem mixedDirectives_answers :
    mixedDirectives.reverse.Perm mixedDirectives ∧
    (∀ line refs, (mixedDirectives.reverse.foldl add {}).isDisabled line refs =
      (mixedDirectives.foldl add {}).isDisabled line refs) ∧
    (mixedDirectives.foldl add {}).size = 2 ∧
    (mixedDirectives.foldl add {}).isDisabled 3 ["M001"] = true ∧
    (mixedDirectives.foldl add {}).isDisabled 5 ["M001"] = false ∧
    ((mixedDirectives.foldl add {}).add ⟨3, ["PARSE"]⟩).isDisabled 3 ["M001"] = true := by
  obtain ⟨-, -, horder, hmore⟩ := added_answers mixedDirectives
  have hperm : mixedDirectives.reverse.Perm mixedDirectives := List.reverse_perm _
  have hoff : (mixedDirectives.foldl add {}).isDisabled 3 ["M001"] = true := by decide
  exact ⟨hperm, (horder _ hperm).1, by decide, hoff, by decide, hmore _ _ _ hoff⟩

end Directives

/-! ### What a line says -/

/-- What stands behind the first two slashes of a line. -/
def IsComment (line comment : List Char) : Prop :=
  ∃ front, line = front ++ '/' :: '/' :: comment ∧
    ∀ front' comment', line = front' ++ '/' :: '/' :: comment' → front.length ≤ front'.length

/-- A keyword alone, or a keyword, a blank and a list. -/
def Announces (keyword : String) (body list : List Char) : Prop :=
  body = keyword.toList ∧ list = [] ∨
    ∃ blank, isBlank blank = true ∧ body = keyword.toList ++ blank :: list

/-- One of the stretches of a list between commas is the rule, with blanks around it or without. -/
def Names (list : List Char) (rule : String) : Prop :=
  rule ≠ "" ∧ ∃ item ∈ list.splitOn ',', IsTrimmed item rule.toList

/-- The comment of a line announces, by the keyword, a list with one of the rules or with none. -/
def SwitchesOff (keyword : String) (line : List Char) (refs : List String) : Prop :=
  ∃ comment body list, IsComment line comment ∧ IsTrimmed comment body ∧
    Announces keyword body list ∧ ((∀ rule, ¬Names list rule) ∨ ∃ ref ∈ refs, Names list ref)

theorem comment?_eq_some_iff {line comment : List Char} :
    comment? line = some comment ↔ IsComment line comment := by
  induction line using comment?.induct with
  | case1 cs =>
    rw [comment?]
    constructor
    · intro h
      exact ⟨[], by rw [Option.some.inj h]; rfl, fun front' _ _ => Nat.zero_le _⟩
    · rintro ⟨front, hline, hfirst⟩
      have hfront : front = [] := by simpa using hfirst [] cs rfl
      rw [hfront] at hline
      simpa using hline
  | case2 c cs hno ih =>
    have hskip : comment? (c :: cs) = comment? cs := by
      rw [comment?]
      exact hno
    rw [hskip, ih]
    constructor
    · rintro ⟨front, rfl, hfirst⟩
      refine ⟨c :: front, rfl, fun front' comment' hline => ?_⟩
      cases front' with
      | nil =>
        obtain ⟨rfl, hrest⟩ := List.cons.inj hline
        exact (hno _ rfl hrest).elim
      | cons d front' =>
        exact Nat.succ_le_succ (hfirst front' comment' (List.cons.inj hline).2)
    · rintro ⟨front, hline, hfirst⟩
      cases front with
      | nil =>
        obtain ⟨rfl, hrest⟩ := List.cons.inj hline
        exact (hno _ rfl hrest).elim
      | cons d front =>
        obtain ⟨rfl, rfl⟩ := List.cons.inj hline
        refine ⟨front, rfl, fun front' comment' hrest => ?_⟩
        exact Nat.le_of_succ_le_succ (hfirst (c :: front') comment' (by rw [hrest]; rfl))
  | case3 =>
    rw [comment?]
    simp only [reduceCtorEq, false_iff]
    rintro ⟨front, hline, -⟩
    simp at hline

theorem behind?_eq_some_iff {front text tail : List Char} :
    behind? front text = some tail ↔ text = front ++ tail := by
  fun_induction behind? front text with
  | case1 cs => simp [eq_comm]
  | case2 => simp
  | case3 f fs cs ih => simp [ih]
  | case4 f fs c cs hne =>
    simp only [reduceCtorEq, false_iff, List.cons_append, List.cons.injEq, not_and]
    exact fun heq => absurd heq.symm hne

theorem splitCommas_eq_splitOn (cs : List Char) : splitCommas cs = cs.splitOn ',' := by
  rw [List.splitOn_eq_splitOnP]
  fun_induction splitCommas cs with
  | case1 => rfl
  | case2 cs ih => rw [List.splitOnP_cons_eq_if_modifyHead, if_pos (beq_self_eq_true _), ih]
  | case3 c cs hc item items hsplit ih =>
    have hne : ¬(c == ',') = true := by simpa using hc
    rw [List.splitOnP_cons_eq_if_modifyHead, if_neg hne, ← ih, hsplit]
    rfl
  | case4 c cs hc hsplit ih =>
    rw [hsplit] at ih
    exact absurd ih.symm (List.splitOnP_ne_nil _ _)

theorem mem_items_iff {list : List Char} {rule : String} :
    rule ∈ ruleList?.items list ↔ Names list rule := by
  rw [ruleList?.items, Names, splitCommas_eq_splitOn]
  simp only [List.mem_filterMap, List.mem_map, exists_exists_and_eq_and, isTrimmed_iff]
  constructor
  · rintro ⟨item, hitem, hrule⟩
    split at hrule
    · simp at hrule
    next hne =>
      obtain rfl := Option.some.inj hrule
      refine ⟨fun hempty => hne ?_, item, hitem, by simp⟩
      simpa using congrArg String.toList hempty
  · rintro ⟨hne, item, hitem, htrim⟩
    have hfull : ¬(trim item).isEmpty = true := by
      rw [htrim, List.isEmpty_iff]
      exact fun hnil => hne (String.toList_eq_nil_iff.mp hnil)
    exact ⟨item, hitem, by rw [if_neg hfull, htrim, String.ofList_toList]⟩

theorem items_eq_nil_iff {list : List Char} :
    ruleList?.items list = [] ↔ ∀ rule, ¬Names list rule := by
  rw [List.eq_nil_iff_forall_not_mem]
  simp only [mem_items_iff]

theorem names_blank_cons {blank : Char} (h : isBlank blank = true) {list : List Char}
    {rule : String} : Names (blank :: list) rule ↔ Names list rule := by
  have hcomma : ¬(blank == ',') = true := by
    intro heq
    rw [beq_iff_eq.mp heq] at h
    exact absurd h (by decide)
  have htrim : ∀ item : List Char, trim (blank :: item) = trim item := fun item => by
    rw [trim, List.dropWhile_cons_of_pos h, trim]
  -- the blank goes to the first item, which is trimmed, and leaves all other items alone
  obtain ⟨first, more, hsplit⟩ := List.exists_cons_of_ne_nil (List.splitOn_ne_nil ',' list)
  have hblank : (blank :: list).splitOn ',' = (blank :: first) :: more := by
    rw [List.splitOn_eq_splitOnP] at hsplit ⊢
    rw [List.splitOnP_cons_eq_if_modifyHead, if_neg hcomma, hsplit]
    rfl
  simp only [Names, hblank, hsplit, List.exists_mem_cons_iff, isTrimmed_iff, htrim]

theorem ruleList?_eq_some_iff {tail : List Char} {rules : List String} :
    ruleList? tail = some rules ↔
      (tail = [] ∨ ∃ blank list, isBlank blank = true ∧ tail = blank :: list) ∧
        rules = ruleList?.items tail := by
  cases tail with
  | nil =>
    have hread : ruleList? [] = some (ruleList?.items []) := by decide
    simpa [hread] using eq_comm
  | cons c cs =>
    have hread : ruleList? (c :: cs) =
        if isBlank c then some (ruleList?.items (c :: cs)) else none := rfl
    by_cases hc : isBlank c = true
    · simpa [hread, hc] using eq_comm
    · simp [hread, hc]

theorem switchesOff_iff {keyword : String} {line : List Char} {refs : List String} :
    SwitchesOff keyword line refs ↔
      ∃ comment tail rules, comment? line = some comment ∧
        trim comment = keyword.toList ++ tail ∧ ruleList? tail = some rules ∧
        (rules = [] ∨ ∃ ref ∈ refs, ref ∈ rules) := by
  simp only [SwitchesOff, comment?_eq_some_iff, isTrimmed_iff, ruleList?_eq_some_iff]
  constructor
  · rintro ⟨comment, body, list, hcomment, rfl, hannounces, hrefs⟩
    obtain ⟨hbody, rfl⟩ | ⟨blank, hblank, hbody⟩ := hannounces
    · refine ⟨comment, [], _, hcomment, by rw [hbody, List.append_nil], ⟨Or.inl rfl, rfl⟩, ?_⟩
      simpa only [items_eq_nil_iff, mem_items_iff] using hrefs
    · refine ⟨comment, blank :: list, _, hcomment, hbody,
        ⟨Or.inr ⟨blank, list, hblank, rfl⟩, rfl⟩, ?_⟩
      simpa only [items_eq_nil_iff, mem_items_iff, names_blank_cons hblank] using hrefs
  · rintro ⟨comment, tail, rules, hcomment, hbody, ⟨rfl | ⟨blank, list, hblank, rfl⟩, rfl⟩, hrefs⟩
    · refine ⟨comment, _, [], hcomment, rfl, Or.inl ⟨by rw [hbody, List.append_nil], rfl⟩, ?_⟩
      simpa only [items_eq_nil_iff, mem_items_iff] using hrefs
    · refine ⟨comment, _, list, hcomment, rfl, Or.inr ⟨blank, hblank, hbody⟩, ?_⟩
      simpa only [items_eq_nil_iff, mem_items_iff, names_blank_cons hblank] using hrefs

theorem keywords_ne (xs ys : List Char) :
    nextLineKeyword.toList ++ xs ≠ thisLineKeyword.toList ++ ys := by
  intro h
  -- behind `mocklint-disable-` one goes on with an `n` and the other with an `l`
  have hchar : (nextLineKeyword.toList ++ xs)[17]? = (thisLineKeyword.toList ++ ys)[17]? := by
    rw [h]
  rw [List.getElem?_append_left (by decide), List.getElem?_append_left (by decide)] at hchar
  exact absurd hchar (by decide)

theorem directive?_eq_some_iff {n : ℕ} {line : List Char} {d : Directive} :
    directive? n line = some d ↔
      ∃ comment tail, comment? line = some comment ∧ ruleList? tail = some d.rules ∧
        (d.line = n + 1 ∧ trim comment = nextLineKeyword.toList ++ tail ∨
          d.line = n ∧ trim comment = thisLineKeyword.toList ++ tail) := by
  constructor
  · intro h
    obtain ⟨comment, hcomment, hrest⟩ := Option.bind_eq_some_iff.mp h
    refine ⟨comment, ?_⟩
    dsimp only at hrest
    split at hrest
    next tail hnext =>
      obtain ⟨rules, hrules, hd⟩ := Option.bind_eq_some_iff.mp hrest
      obtain rfl := Option.some.inj hd
      exact ⟨tail, hcomment, hrules, Or.inl ⟨rfl, behind?_eq_some_iff.mp hnext⟩⟩
    next =>
      obtain ⟨tail, hthis, hrest⟩ := Option.bind_eq_some_iff.mp hrest
      obtain ⟨rules, hrules, hd⟩ := Option.bind_eq_some_iff.mp hrest
      obtain rfl := Option.some.inj hd
      exact ⟨tail, hcomment, hrules, Or.inr ⟨rfl, behind?_eq_some_iff.mp hthis⟩⟩
  · rintro ⟨comment, tail, hcomment, hrules, ⟨hline, hbody⟩ | ⟨hline, hbody⟩⟩
    · have hnext := behind?_eq_some_iff.mpr hbody
      simp [directive?, hcomment, hnext, hrules, ← hline]
    · -- the keyword for the next line is looked for first, and is not there
      have hnext : behind? nextLineKeyword.toList (trim comment) = none := by
        rw [Option.eq_none_iff_forall_ne_some]
        intro tail' hnext
        exact keywords_ne tail' tail ((behind?_eq_some_iff.mp hnext).symm.trans hbody)
      have hthis := behind?_eq_some_iff.mpr hbody
      simp [directive?, hcomment, hnext, hthis, hrules, ← hline]

theorem exists_directive?_iff {n l : ℕ} {line : List Char} {refs : List String} :
    (∃ d, directive? n line = some d ∧ d.line = l ∧ d.disablesAny refs = true) ↔
      l = n + 1 ∧ SwitchesOff nextLineKeyword line refs ∨
        l = n ∧ SwitchesOff thisLineKeyword line refs := by
  simp only [directive?_eq_some_iff, switchesOff_iff, Directive.disablesAny_iff]
  constructor
  · rintro ⟨d, ⟨comment, tail, hcomment, hrules, ⟨hline, hbody⟩ | ⟨hline, hbody⟩⟩, rfl, hrefs⟩
    · exact Or.inl ⟨hline, comment, tail, d.rules, hcomment, hbody, hrules, hrefs⟩
    · exact Or.inr ⟨hline, comment, tail, d.rules, hcomment, hbody, hrules, hrefs⟩
  · rintro (⟨rfl, comment, tail, rules, hcomment, hbody, hrules, hrefs⟩ |
      ⟨rfl, comment, tail, rules, hcomment, hbody, hrules, hrefs⟩)
    · exact ⟨⟨n + 1, rules⟩, ⟨comment, tail, hcomment, hrules, Or.inl ⟨rfl, hbody⟩⟩, rfl, hrefs⟩
    · exact ⟨⟨l, rules⟩, ⟨comment, tail, hcomment, hrules, Or.inr ⟨rfl, hbody⟩⟩, rfl, hrefs⟩

theorem directivesFrom_eq_filterMap (n : ℕ) (texts : List (List Char)) :
    directivesFrom n texts =
      (List.range texts.length).filterMap fun i => texts[i]?.bind (directive? (n + i)) := by
  induction texts generalizing n with
  | nil => rfl
  | cons text texts ih =>
    rw [directivesFrom, ih, List.length_cons, List.range_succ_eq_map, List.filterMap_cons,
      List.filterMap_map]
    have hrest : (fun i => texts[i]?.bind (directive? (n + 1 + i))) =
        (fun i => (text :: texts)[i]?.bind (directive? (n + i))) ∘ Nat.succ := by
      funext i
      simp [Nat.add_assoc, Nat.add_comm 1 i]
    rw [hrest]
    cases hfirst : directive? n text <;> simp [hfirst]

theorem mem_directivesFrom_iff {n : ℕ} {texts : List (List Char)} {d : Directive} :
    d ∈ directivesFrom n texts ↔
      ∃ i line, texts[i]? = some line ∧ directive? (n + i) line = some d := by
  rw [directivesFrom_eq_filterMap]
  simp only [List.mem_filterMap, List.mem_range, Option.bind_eq_some_iff]
  constructor
  · rintro ⟨i, -, line, hline, hd⟩
    exact ⟨i, line, hline, hd⟩
  · rintro ⟨i, line, hline, hd⟩
    exact ⟨i, (List.getElem?_eq_some_iff.mp hline).1, line, hline, hd⟩

namespace Directives

/-- Each line of a text answers for itself or for the line behind it, as its keyword says. -/
theorem isDisabled_ofText_iff_exists {text : List Char} {l : ℕ} {refs : List String} :
    (ofText text).isDisabled l refs = true ↔
      ∃ i line, (Text.lines text)[i]? = some line ∧
        (l = i + 2 ∧ SwitchesOff nextLineKeyword line refs ∨
          l = i + 1 ∧ SwitchesOff thisLineKeyword line refs) := by
  have hanswer : ∀ i line, (l = i + 2 ∧ SwitchesOff nextLineKeyword line refs ∨
      l = i + 1 ∧ SwitchesOff thisLineKeyword line refs) ↔
      ∃ d, directive? (1 + i) line = some d ∧ d.line = l ∧ d.disablesAny refs = true := by
    intro i line
    rw [exists_directive?_iff, Nat.add_comm 1 i]
  rw [isDisabled_ofText, List.any_eq_true]
  simp only [mem_directivesFrom_iff, Bool.and_eq_true, decide_eq_true_eq, hanswer]
  constructor
  · rintro ⟨d, ⟨i, line, hline, hd⟩, hoff⟩
    exact ⟨i, line, hline, d, hd, hoff⟩
  · rintro ⟨i, line, hline, d, hd, hoff⟩
    exact ⟨d, ⟨i, line, hline, hd⟩, hoff⟩

theorem isDisabled_ofText_eq_true_iff {text : List Char} {l : ℕ} {refs : List String} :
    (ofText text).isDisabled l refs = true ↔
      (∃ line, numbered? text (l - 1) = some line ∧ SwitchesOff nextLineKeyword line refs) ∨
        ∃ line, numbered? text l = some line ∧ SwitchesOff thisLineKeyword line refs := by
  rw [isDisabled_ofText_iff_exists]
  simp only [numbered?_eq_some_iff]
  constructor
  · rintro ⟨i, line, hline, ⟨rfl, hoff⟩ | ⟨rfl, hoff⟩⟩
    · exact Or.inl ⟨line, ⟨i, by omega, hline⟩, hoff⟩
    · exact Or.inr ⟨line, ⟨i, by omega, hline⟩, hoff⟩
  · rintro (⟨line, ⟨i, hl, hline⟩, hoff⟩ | ⟨line, ⟨i, hl, hline⟩, hoff⟩)
    · exact ⟨i, line, hline, Or.inl ⟨by omega, hoff⟩⟩
    · exact ⟨i, line, hline, Or.inr ⟨by omega, hoff⟩⟩

/-- Directives act where they stand. A line is switched off for a rule exactly if the line in front
of it says so for the next line or it says so itself: behind its first two slashes and without the
blanks around, it holds the keyword alone, or the keyword, a blank and a list between whose commas
the rule stands or nothing at all. So two texts with these two lines in common switch the same rules
off there. -/
theorem isDisabled_local (text other : List Char) (l : ℕ) (refs : List String) :
    ((ofText text).isDisabled l refs = true ↔
      (∃ line, numbered? text (l - 1) = some line ∧ SwitchesOff nextLineKeyword line refs) ∨
        ∃ line, numbered? text l = some line ∧ SwitchesOff thisLineKeyword line refs) ∧
    (numbered? text (l - 1) = numbered? other (l - 1) → numbered? text l = numbered? other l →
      (ofText text).isDisabled l refs = (ofText other).isDisabled l refs) := by
  refine ⟨isDisabled_ofText_eq_true_iff, ?_⟩
  intro hbefore hline
  rw [Bool.eq_iff_iff, isDisabled_ofText_eq_true_iff, isDisabled_ofText_eq_true_iff, hbefore, hline]

/-- A directive for the next line with a list in front of a line with another one, and around them a
keyword that goes on as a longer word and lines that hold nothing. -/
def listedLines : String :=
  "// mocklint-disable-lines\n\ta(); //\u00a0mocklint-disable-next-line\tJ001\r\n" ++
    "b(); // mocklint-disable-line , prefer-mocked ,\nc();"

/-- The same two lines between directives for all rules. -/
def enclosedLines : String :=
  "// mocklint-disable-next-line\n\ta(); //\u00a0mocklint-disable-next-line\tJ001\n" ++
    "b(); // mocklint-disable-line , prefer-mocked ,\n// mocklint-disable-line"

theorem listedLines_isDisabled :
    numbered? listedLines.toList 2 = numbered? enclosedLines.toList 2 ∧
    numbered? listedLines.toList 3 = numbered? enclosedLines.toList 3 ∧
    (∀ refs, (ofText listedLines.toList).isDisabled 3 refs =
      (ofText enclosedLines.toList).isDisabled 3 refs) ∧
    (ofText enclosedLines.toList).isDisabled 3 ["J001"] = true ∧
    (ofText enclosedLines.toList).isDisabled 3 ["M001", "prefer-mocked"] = true ∧
    (ofText enclosedLines.toList).isDisabled 3 ["PARSE"] = false ∧
    (ofText enclosedLines.toList).isDisabled 2 ["PARSE"] = true ∧
    (ofText listedLines.toList).isDisabled 1 ["PARSE"] = false := by
  -- the texts are decoded once for all that is read in them
  have hread : (numbered? listedLines.toList (3 - 1) = numbered? enclosedLines.toList (3 - 1) ∧
      numbered? listedLines.toList 3 = numbered? enclosedLines.toList 3) ∧
      (ofText enclosedLines.toList).isDisabled 3 ["J001"] = true ∧
      (ofText enclosedLines.toList).isDisabled 3 ["M001", "prefer-mocked"] = true ∧
      (ofText enclosedLines.toList).isDisabled 3 ["PARSE"] = false ∧
      (ofText enclosedLines.toList).isDisabled 2 ["PARSE"] = true ∧
      (ofText listedLines.toList).isDisabled 1 ["PARSE"] = false := by
    decide +kernel
  obtain ⟨⟨hbefore, hline⟩, hanswers⟩ := hread
  have hsame : ∀ refs, (ofText listedLines.toList).isDisabled 3 refs =
      (ofText enclosedLines.toList).isDisabled 3 refs := fun refs =>
    (isDisabled_local listedLines.toList enclosedLines.toList 3 refs).2 hbefore hline
  exact ⟨hbefore, hline, hsame, hanswers⟩

end Directives

end Source
end CastLint
