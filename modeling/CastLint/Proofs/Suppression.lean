import CastLint.Proofs.MockedCalls

/-! What directives and settings leave of the findings in a text. A directive takes away findings on
its line, and settings take away a rule or give its findings another severity. Neither touches
anything else, and settings have no say in what is wrong with the text itself. -/

namespace CastLint

namespace Source

/-- A directive of the text switches a rule off on a line: it is for that line, and it lists the
rule or no rule at all. -/
def SwitchedOff (text : List Char) (line : Nat) (ref : String) : Prop :=
  ∃ d ∈ directivesFrom 1 (Text.lines text), d.line = line ∧ (d.rules = [] ∨ ref ∈ d.rules)

instance switchedOffDecidable (text : List Char) (line : Nat) (ref : String) :
    Decidable (SwitchedOff text line ref) :=
  inferInstanceAs (Decidable (∃ d ∈ directivesFrom 1 (Text.lines text), _))

theorem Directive.disablesAny_iff {d : Directive} {refs : List String} :
    d.disablesAny refs = true ↔ d.rules = [] ∨ ∃ ref ∈ refs, ref ∈ d.rules := by
  simp only [disablesAny, disablesAll, Bool.or_eq_true, List.isEmpty_iff, List.any_eq_true,
    List.contains_iff_mem]
  exact or_congr_right ⟨fun ⟨x, hx, hrefs⟩ => ⟨x, hrefs, hx⟩, fun ⟨x, hrefs, hx⟩ => ⟨x, hx, hrefs⟩⟩

@[simp] theorem Directive.merge_line (d e : Directive) : (d.merge e).line = d.line := by
  unfold merge
  split <;> rfl

theorem Directive.disablesAny_merge (d e : Directive) (refs : List String) :
    (d.merge e).disablesAny refs = (d.disablesAny refs || e.disablesAny refs) := by
  obtain ⟨line, rules⟩ := d
  obtain ⟨line', rules'⟩ := e
  rw [Bool.eq_iff_iff, Bool.or_eq_true]
  simp only [disablesAny_iff, merge, disablesAll]
  cases rules with
  | nil => simp
  | cons first more =>
    cases rules' with
    | nil => simp
    | cons first' more' =>
      simp only [List.isEmpty_cons, Bool.or_self, Bool.false_eq_true, if_false, reduceCtorEq,
        List.append_eq_nil_iff, and_self, false_or, List.mem_append, and_or_left, exists_or]

namespace Directives

/-- A directive that is added speaks for its own line only. -/
theorem isDisabled_insert (d : Directive) (entries : List Directive) (line : Nat)
    (refs : List String) :
    isDisabled ⟨insert d entries⟩ line refs =
      (isDisabled ⟨entries⟩ line refs || (d.line = line && d.disablesAny refs)) := by
  induction entries with
  | nil =>
    by_cases hline : d.line = line <;> simp [isDisabled, insert, hline]
  | cons e entries ih =>
    by_cases hsame : e.line = d.line
    · by_cases hline : d.line = line
      · simp [isDisabled, insert, hsame, hline, Directive.disablesAny_merge]
      · simp [isDisabled, insert, hsame, hline]
    · by_cases hline : e.line = line
      · subst hline
        simp [isDisabled, insert, hsame, Ne.symm hsame]
      · simp only [isDisabled, insert, hsame, hline, if_false, List.find?_cons, decide_false] at ih ⊢
        exact ih

theorem isDisabled_foldl_add (added : List Directive) (ds : Directives) (line : Nat)
    (refs : List String) :
    (added.foldl add ds).isDisabled line refs =
      (ds.isDisabled line refs || added.any fun d => d.line = line && d.disablesAny refs) := by
  induction added generalizing ds with
  | nil => simp
  | cons d added ih =>
    have hadd := isDisabled_insert d ds.entries line refs
    rw [List.foldl_cons, ih, add, hadd, List.any_cons, Bool.or_assoc]

theorem isDisabled_ofText (text : List Char) (line : Nat) (refs : List String) :
    (ofText text).isDisabled line refs =
      (directivesFrom 1 (Text.lines text)).any fun d => d.line = line && d.disablesAny refs := by
  have hnone : ({} : Directives).isDisabled line refs = false := rfl
  rw [ofText, isDisabled_foldl_add, hnone, Bool.false_or]

theorem isDisabled_ofText_iff {text : List Char} {line : Nat} {refs : List String}
    (hrefs : refs ≠ []) :
    (ofText text).isDisabled line refs = true ↔ ∃ ref ∈ refs, SwitchedOff text line ref := by
  obtain ⟨first, hfirst⟩ := List.exists_mem_of_ne_nil refs hrefs
  rw [isDisabled_ofText, List.any_eq_true]
  simp only [Bool.and_eq_true, decide_eq_true_eq, Directive.disablesAny_iff]
  constructor
  · rintro ⟨d, hd, hline, hall | ⟨ref, href, hlisted⟩⟩
    · exact ⟨first, hfirst, d, hd, hline, Or.inl hall⟩
    · exact ⟨ref, href, d, hd, hline, Or.inr hlisted⟩
  · rintro ⟨ref, href, d, hd, hline, hall | hlisted⟩
    · exact ⟨d, hd, hline, Or.inl hall⟩
    · exact ⟨d, hd, hline, Or.inr ⟨ref, href, hlisted⟩⟩

end Directives

end Source

namespace Lint

open Source (SwitchedOff)

namespace PreferMocked

theorem mem_check_info {file : Source.File} {d : Diagnostic} (h : d ∈ check file) :
    d.ruleId = "J001" ∧ d.severity = .warning := by
  obtain ⟨cast, -, hfinding⟩ := mem_check h
  obtain ⟨-, hid, hseverity, -⟩ := finding?_inv hfinding
  exact ⟨hid, hseverity⟩

end PreferMocked

namespace Engine

/-- The severity that settings give to the findings of the rule: under its id, else under its name,
else the one that the rule has. -/
def mockSeverity (settings : RuleSettings) : Severity :=
  (settings.severity.lookup "J001" <|> settings.severity.lookup "prefer-mocked").getD .warning

theorem runAll_ofSettings (settings : RuleSettings) (file : Source.File) :
    (ofSettings settings).registry.runAll file =
      if "J001" ∈ settings.disabled ∨ "prefer-mocked" ∈ settings.disabled then []
      else (PreferMocked.check file).map ({ · with severity := mockSeverity settings }) := by
  have hruns : (ofSettings settings).registry.runs PreferMocked.rule = true ↔
      ¬("J001" ∈ settings.disabled ∨ "prefer-mocked" ∈ settings.disabled) := by
    simp [Registry.runs, ofSettings, Registry.configure, PreferMocked.rule, PreferMocked.info]
  have hrule : (ofSettings settings).registry.runRule file PreferMocked.rule =
      (PreferMocked.check file).map ({ · with severity := mockSeverity settings }) := by
    have hseverity : (ofSettings settings).registry.severityOf? PreferMocked.rule =
        (settings.severity.lookup "J001" <|> settings.severity.lookup "prefer-mocked") := rfl
    rw [Registry.runRule, hseverity, mockSeverity]
    cases settings.severity.lookup "J001" <|> settings.severity.lookup "prefer-mocked" with
    | some severity => rfl
    | none =>
      -- the rule itself warns, so putting a warning in changes nothing
      have hsame : (PreferMocked.check file).map ({ · with severity := .warning }) =
          (PreferMocked.check file).map id := by
        refine List.map_congr_left fun d hd => ?_
        rw [← (PreferMocked.mem_check_info hd).2]
        rfl
      exact ((List.map_id _).symm.trans hsame.symm)
  have hrules : (ofSettings settings).registry.rules = [PreferMocked.rule] := rfl
  rw [Registry.runAll, hrules]
  split
  next hoff =>
    have hstill : (ofSettings settings).registry.runs PreferMocked.rule = false := by
      rw [← Bool.not_eq_true, hruns]
      exact not_not_intro hoff
    simp [hstill]
  next hon => simp [hruns.mpr hon, hrule]

theorem isSuppressed_iff (settings : RuleSettings) (name text : String) (d : Diagnostic) :
    (ofSettings settings).isSuppressed (Source.File.ofText name text) d = true ↔
      ∃ ref ∈ (ofSettings settings).namesOf d, SwitchedOff text.toList d.range.start.line ref :=
  Source.Directives.isDisabled_ofText_iff (List.cons_ne_nil _ _)

theorem parseFindings_filter (name text : String) (p : ℕ → Bool) :
    (parseFindings (Source.File.ofText name text)).filter (p ·.range.start.line) =
      ((Source.File.ofText name text).module.problems.filter (p ·.location.line)).map fun problem =>
        { ruleId := "PARSE"
          messageId := none
          severity := .error
          message := problem.message
          file := name
          range := ⟨problem.location, problem.location⟩
          suggestion := none
          fixes := [] } := by
  rw [parseFindings, List.filter_map]
  rfl

/-- The findings in a text are the problems of its parse, in their order, and what the rule against
casts finds, without what directives switch off. Settings do not change the first part; in the
second they can switch the rule off, and give its findings another severity. -/
theorem analyzeText_ofSettings (settings : RuleSettings) (name text : String) :
    (ofSettings settings).analyzeText name text =
      (((Source.File.ofText name text).module.problems.filter fun problem =>
          ¬SwitchedOff text.toList problem.location.line "PARSE").map fun problem =>
        { ruleId := "PARSE"
          messageId := none
          severity := .error
          message := problem.message
          file := name
          range := ⟨problem.location, problem.location⟩
          suggestion := none
          fixes := [] }) ++
        if "J001" ∈ settings.disabled ∨ "prefer-mocked" ∈ settings.disabled then []
        else
          ((PreferMocked.check (Source.File.ofText name text)).filter fun d =>
            ¬(SwitchedOff text.toList d.range.start.line "J001" ∨
              SwitchedOff text.toList d.range.start.line "prefer-mocked")).map
            ({ · with severity := mockSeverity settings }) := by
  have hparse : ∀ d ∈ parseFindings (Source.File.ofText name text),
      (ofSettings settings).namesOf d = ["PARSE"] := by
    intro d hd
    obtain ⟨p, -, rfl⟩ := List.mem_map.mp hd
    rfl
  have hmock : ∀ d ∈ PreferMocked.check (Source.File.ofText name text),
      (ofSettings settings).namesOf { d with severity := mockSeverity settings } =
        ["J001", "prefer-mocked"] := by
    intro d hd
    rw [namesOf, (PreferMocked.mem_check_info hd).1]
    rfl
  rw [analyzeText, analyze, List.filter_append, runAll_ofSettings]
  congr 1
  · rw [← parseFindings_filter name text fun line => ¬SwitchedOff text.toList line "PARSE"]
    refine List.filter_congr fun d hd => ?_
    rw [Bool.eq_iff_iff, Bool.not_eq_true', ← Bool.not_eq_true, isSuppressed_iff, hparse d hd]
    simp
  · split
    · rfl
    · rw [List.filter_map]
      congr 1
      refine List.filter_congr fun d hd => ?_
      rw [Function.comp_apply, Bool.eq_iff_iff, Bool.not_eq_true', ← Bool.not_eq_true,
        isSuppressed_iff, hmock d hd]
      simp

/-- Two casts and two mistakes, one of each with a directive against it. -/
def mixedText : String :=
  "a as jest.Mock; // mocklint-disable-line J001\nb as jest.Mock;\ndelete c;\n" ++
    "delete d; // mocklint-disable-line PARSE\n"

theorem mixedText_analyzed :
    ((ofSettings { severity := [("prefer-mocked", .info)] }).analyzeText "a.ts" mixedText).map
        (fun d => (d.ruleId, d.severity, d.message, d.range.start)) =
      [("PARSE", .error, "'delete' cannot be called on an identifier in strict mode", ⟨3, 8⟩),
        ("PARSE", .error, "The operand of a 'delete' operator must be a property reference.", ⟨3, 8⟩),
        ("J001", .info, "Prefer jest.mocked()", ⟨2, 1⟩)] ∧
    ((ofSettings { disabled := ["prefer-mocked"] }).analyzeText "a.ts" mixedText).map
        (fun d => (d.ruleId, d.range.start.line)) = [("PARSE", 3), ("PARSE", 3)] := by
  rw [analyzeText_ofSettings, analyzeText_ofSettings]
  decide +kernel

end Engine

end Lint
end CastLint
