import CastLint.Proofs.Registries
import Mathlib.Data.List.Basic
import Mathlib.Data.List.Count

/-! How settings refer to rules. A reference stands for the first rule with this id, or else for the
first one with this name. The entries of settings that are warned about are those that refer to no
rule, or give options to a rule that takes none, and without them the same is reported. Where all ids
are different, a rule is on exactly if its check has a say in what is reported, and a reference is on
exactly if the rule is that it stands for. -/

namespace CastLint
namespace Lint

/-! ### Entries and warnings -/

inductive SettingsPart where
  | disabled | severity | options
deriving DecidableEq, Repr

def RuleSettings.entries (settings : RuleSettings) : SettingsPart → List String
  | .disabled => settings.disabled
  | .severity => settings.severity.map Prod.fst
  | .options => settings.options

namespace SettingsWarning

def part : SettingsWarning → SettingsPart
  | unknownDisabled _ => .disabled
  | unknownSeverity _ => .severity
  | unknownOptions _ => .options
  | noOptions _ _ => .options

def ref : SettingsWarning → String
  | unknownDisabled ref => ref
  | unknownSeverity ref => ref
  | unknownOptions ref => ref
  | noOptions _ ref => ref

def AnyAbout (warnings : List SettingsWarning) (part : SettingsPart) (ref : String) : Prop :=
  ∃ w ∈ warnings, w.part = part ∧ w.ref = ref

instance anyAboutDecidable (warnings : List SettingsWarning) (part : SettingsPart) (ref : String) :
    Decidable (AnyAbout warnings part ref) :=
  inferInstanceAs (Decidable (∃ w ∈ warnings, _))

end SettingsWarning

/-- Settings without the entries that warnings are about. -/
def RuleSettings.without (settings : RuleSettings) (warnings : List SettingsWarning) :
    RuleSettings where
  disabled := settings.disabled.filter (¬SettingsWarning.AnyAbout warnings .disabled ·)
  severity := settings.severity.filter (¬SettingsWarning.AnyAbout warnings .severity ·.1)
  options := settings.options.filter (¬SettingsWarning.AnyAbout warnings .options ·)

theorem lookup_filter {β : Type} (p : String → Bool) {key : String} (h : p key = true)
    (entries : List (String × β)) : (entries.filter (p ·.1)).lookup key = entries.lookup key := by
  induction entries with
  | nil => rfl
  | cons x entries ih =>
    obtain ⟨name, value⟩ := x
    by_cases hname : key = name
    · subst hname
      simp [h]
    · have hbeq : (key == name) = false := by simpa using hname
      cases hp : p name with
      | true => simp [hp, List.lookup_cons, hbeq, ih]
      | false => simp [hp, List.lookup_cons, hbeq, ih]

namespace Registry

/-! ### What a reference stands for -/

def Knows (r : Registry) (ref : String) : Prop :=
  ∃ rule ∈ r.rules, rule.info.id = ref ∨ rule.info.name = ref

/-- The first rule whose key is the reference. -/
def IsFirst (r : Registry) (key : RuleInfo → String) (ref : String) (rule : Rule) : Prop :=
  ∃ front back, r.rules = front ++ rule :: back ∧ key rule.info = ref ∧
    ∀ other ∈ front, key other.info ≠ ref

/-- A reference stands for the first rule with this id or, if no rule has it, for the first one with
this name. -/
def StandsFor (r : Registry) (ref : String) (rule : Rule) : Prop :=
  r.IsFirst (·.id) ref rule ∨
    (∀ other ∈ r.rules, other.info.id ≠ ref) ∧ r.IsFirst (·.name) ref rule

/-- An entry in a part of settings has an effect: it refers to a rule, and if it gives options to one
then that rule takes them. -/
def Heeds (r : Registry) : SettingsPart → String → Prop
  | .options, ref => ∃ rule, r.StandsFor ref rule ∧ rule.info.acceptsOptions = true
  | _, ref => r.Knows ref

section

variable {r : Registry} {ref : String} {rule : Rule} {part : SettingsPart} {settings : RuleSettings}

theorem find?_eq_some_iff_isFirst (key : RuleInfo → String) :
    r.rules.find? (fun rule => key rule.info = ref) = some rule ↔ r.IsFirst key ref rule := by
  rw [List.find?_eq_some_iff_append, IsFirst]
  simp only [decide_eq_true_eq, Bool.not_eq_true', decide_eq_false_iff_not]
  constructor
  · rintro ⟨hkey, front, back, hrules, hfront⟩
    exact ⟨front, back, hrules, hkey, hfront⟩
  · rintro ⟨front, back, hrules, hkey, hfront⟩
    exact ⟨hkey, front, back, hrules, hfront⟩

theorem find?_eq_some_iff : r.find? ref = some rule ↔ r.StandsFor ref rule := by
  have hid : r.getById? ref = some rule ↔ r.IsFirst (·.id) ref rule :=
    find?_eq_some_iff_isFirst (·.id)
  have hname : r.getByName? ref = some rule ↔ r.IsFirst (·.name) ref rule :=
    find?_eq_some_iff_isFirst (·.name)
  have hnone : r.getById? ref = none ↔ ∀ other ∈ r.rules, other.info.id ≠ ref := by
    simp [getById?]
  rw [find?, StandsFor, ← hid, ← hname, ← hnone]
  cases r.getById? ref <;> simp

theorem find?_eq_none_iff : r.find? ref = none ↔ ¬r.Knows ref := by
  simp [find?, getById?, getByName?, Knows, not_or, forall_and]

/-! ### The entries that are warned about -/

def warning? (r : Registry) : SettingsPart → String → Option SettingsWarning
  | .disabled => r.disabledWarning?
  | .severity => r.severityWarning?
  | .options => r.optionsWarning?

theorem warnings_eq_flatMap (settings : RuleSettings) :
    r.warnings settings = [.disabled, .severity, .options].flatMap fun part =>
      (settings.entries part).filterMap (r.warning? part) := by
  simp [warnings, warning?, RuleSettings.entries, List.filterMap_map]

theorem optionsWarning?_eq_some {w : SettingsWarning} (h : r.optionsWarning? ref = some w) :
    w = .unknownOptions ref ∧ ¬r.Knows ref ∨
      ∃ rule, r.StandsFor ref rule ∧ rule.info.acceptsOptions = false ∧
        w = .noOptions rule.info.name ref := by
  rw [optionsWarning?] at h
  cases hfind : r.find? ref with
  | none =>
    have hw : SettingsWarning.unknownOptions ref = w := by simpa [hfind] using h
    exact Or.inl ⟨hw.symm, find?_eq_none_iff.mp hfind⟩
  | some rule =>
    have hw : rule.info.acceptsOptions = false ∧
        SettingsWarning.noOptions rule.info.name ref = w := by
      simpa [hfind] using h
    exact Or.inr ⟨rule, find?_eq_some_iff.mp hfind, hw.1, hw.2.symm⟩

theorem warning?_about {w : SettingsWarning} (h : r.warning? part ref = some w) :
    w.part = part ∧ w.ref = ref := by
  cases part with
  | disabled =>
    have hw : r.isKnown ref = false ∧ SettingsWarning.unknownDisabled ref = w := by
      simpa [warning?, disabledWarning?] using h
    exact hw.2 ▸ ⟨rfl, rfl⟩
  | severity =>
    have hw : r.isKnown ref = false ∧ SettingsWarning.unknownSeverity ref = w := by
      simpa [warning?, severityWarning?] using h
    exact hw.2 ▸ ⟨rfl, rfl⟩
  | options =>
    obtain ⟨rfl, -⟩ | ⟨rule, -, -, rfl⟩ := optionsWarning?_eq_some h
    · exact ⟨rfl, rfl⟩
    · exact ⟨rfl, rfl⟩

theorem warning?_of_mem {w : SettingsWarning} (h : w ∈ r.warnings settings) :
    r.warning? w.part w.ref = some w := by
  rw [warnings_eq_flatMap] at h
  obtain ⟨part, -, hpart⟩ := List.mem_flatMap.mp h
  obtain ⟨ref, -, hwarning⟩ := List.mem_filterMap.mp hpart
  obtain ⟨rfl, rfl⟩ := warning?_about hwarning
  exact hwarning

theorem warning?_eq_none_iff : r.warning? part ref = none ↔ r.Heeds part ref := by
  have hknown : r.isKnown ref = true ↔ r.Knows ref := by
    rw [isKnown, ← not_iff_not, ← find?_eq_none_iff, Option.not_isSome_iff_eq_none]
  cases part with
  | disabled => simp [warning?, disabledWarning?, Heeds, hknown]
  | severity => simp [warning?, severityWarning?, Heeds, hknown]
  | options =>
    simp only [warning?, optionsWarning?, Heeds, ← find?_eq_some_iff]
    cases r.find? ref <;> simp

instance heedsDecidable (r : Registry) (part : SettingsPart) (ref : String) :
    Decidable (r.Heeds part ref) :=
  decidable_of_iff (r.warning? part ref = none) warning?_eq_none_iff

theorem countP_filterMap_warning? (part' : SettingsPart) (refs : List String) :
    (refs.filterMap (r.warning? part')).countP (fun w => w.part = part ∧ w.ref = ref) =
      if part' = part ∧ ¬r.Heeds part ref then refs.count ref else 0 := by
  induction refs with
  | nil => simp
  | cons first refs ih =>
    cases hwarning : r.warning? part' first with
    | none =>
      have hheeds := warning?_eq_none_iff.mp hwarning
      rw [List.filterMap_cons_none hwarning, ih]
      split
      next hoff =>
        have hne : first ≠ ref := by
          rintro rfl
          exact hoff.2 (hoff.1 ▸ hheeds)
        rw [List.count_cons_of_ne hne]
      next => rfl
    | some w =>
      obtain ⟨rfl, rfl⟩ := warning?_about hwarning
      have hheeds : ¬r.Heeds w.part w.ref := by
        rw [← warning?_eq_none_iff, hwarning]
        exact Option.some_ne_none w
      rw [List.filterMap_cons_some hwarning, List.countP_cons, ih, List.count_cons]
      by_cases hpart : w.part = part
      · subst hpart
        by_cases href : w.ref = ref
        · subst href
          simp [hheeds]
        · simp [href]
      · simp [hpart]

theorem countP_warnings (settings : RuleSettings) (part : SettingsPart) (ref : String) :
    (r.warnings settings).countP (fun w => w.part = part ∧ w.ref = ref) =
      if r.Heeds part ref then 0 else (settings.entries part).count ref := by
  rw [warnings_eq_flatMap]
  simp only [List.flatMap_cons, List.flatMap_nil, List.append_nil, List.countP_append,
    countP_filterMap_warning?]
  by_cases hheeds : r.Heeds part ref
  · simp [hheeds]
  · cases part <;> simp [hheeds]

theorem anyAbout_warnings_iff :
    SettingsWarning.AnyAbout (r.warnings settings) part ref ↔
      ref ∈ settings.entries part ∧ ¬r.Heeds part ref := by
  have hpos : SettingsWarning.AnyAbout (r.warnings settings) part ref ↔
      0 < (r.warnings settings).countP (fun w => w.part = part ∧ w.ref = ref) := by
    simp [SettingsWarning.AnyAbout, List.countP_pos_iff]
  rw [hpos, countP_warnings]
  split
  next hheeds => simp [hheeds]
  next hheeds => simp [hheeds, List.count_pos_iff]

/-! ### What is reported -/

theorem configure_holds (r : Registry) (settings : RuleSettings) :
    (r.configure settings).Holds r.rules settings :=
  ⟨rfl, rfl, rfl⟩

/-- What is reported depends on which rules settings switch off and on the severities that they
give. -/
theorem runAll_configure_congr {other : RuleSettings}
    (hoff : ∀ rule ∈ r.rules, other.SwitchesOff rule ↔ settings.SwitchesOff rule)
    (hseverity : ∀ rule ∈ r.rules, other.severityOf? rule = settings.severityOf? rule)
    (file : Source.File) : (r.configure other).runAll file = (r.configure settings).runAll file := by
  have hfilter : r.rules.filter (¬other.SwitchesOff ·) = r.rules.filter (¬settings.SwitchesOff ·) :=
    List.filter_congr fun rule hrule => by simp only [hoff rule hrule]
  rw [(configure_holds r other).runAll_eq, (configure_holds r settings).runAll_eq, hfilter]
  refine List.flatMap_congr fun rule hrule => ?_
  have hgrade : other.grade rule = settings.grade rule := by
    funext d
    rw [RuleSettings.grade, RuleSettings.grade, hseverity rule (List.mem_of_mem_filter hrule)]
  rw [hgrade]

theorem runAll_configure_without (r : Registry) (settings : RuleSettings) (file : Source.File) :
    (r.configure (settings.without (r.warnings settings))).runAll file =
      (r.configure settings).runAll file := by
  have hid : ∀ rule ∈ r.rules, r.Knows rule.info.id := fun rule hrule => ⟨rule, hrule, Or.inl rfl⟩
  have hname : ∀ rule ∈ r.rules, r.Knows rule.info.name := fun rule hrule =>
    ⟨rule, hrule, Or.inr rfl⟩
  have hdisabled : ∀ ref, r.Knows ref →
      (ref ∈ (settings.without (r.warnings settings)).disabled ↔ ref ∈ settings.disabled) := by
    intro ref hknows
    have hheeds : r.Heeds .disabled ref := hknows
    simp [RuleSettings.without, anyAbout_warnings_iff, hheeds]
  have hlookup : ∀ ref, r.Knows ref →
      (settings.without (r.warnings settings)).severity.lookup ref =
        settings.severity.lookup ref := by
    intro ref hknows
    have hheeds : r.Heeds .severity ref := hknows
    have hkept : ¬SettingsWarning.AnyAbout (r.warnings settings) .severity ref := by
      rw [anyAbout_warnings_iff]
      exact fun habout => habout.2 hheeds
    exact lookup_filter (¬SettingsWarning.AnyAbout (r.warnings settings) .severity ·) (by simp [hkept])
      settings.severity
  refine runAll_configure_congr (fun rule hrule => ?_) (fun rule hrule => ?_) file
  · exact or_congr (hdisabled _ (hid rule hrule)) (hdisabled _ (hname rule hrule))
  · rw [RuleSettings.severityOf?, RuleSettings.severityOf?, hlookup _ (hid rule hrule),
      hlookup _ (hname rule hrule)]

/-! ### Rules that are on -/

/-- The check of a rule between others has a say in what is reported: with another check in its place
something else is reported about some file. -/
def HasSay (r : Registry) (front : List Rule) (rule : Rule) (back : List Rule) : Prop :=
  ∃ check file, ({ r with rules := front ++ { rule with check := check } :: back }).runAll file ≠
    r.runAll file

/-- What is reported is what the rules in front of a rule report, then what the rule itself reports
if it is on, and then what the rules behind it report. -/
theorem runAll_append {front back : List Rule} (r : Registry) (file : Source.File) :
    ({ r with rules := front ++ rule :: back }).runAll file =
      (front.filter r.runs).flatMap (r.runRule file) ++
        ((if r.runs rule then r.runRule file rule else []) ++
          (back.filter r.runs).flatMap (r.runRule file)) := by
  have hruns : ({ r with rules := front ++ rule :: back } : Registry).runs = r.runs := rfl
  have hrun : ({ r with rules := front ++ rule :: back } : Registry).runRule = r.runRule := rfl
  rw [runAll, hruns, hrun, List.filter_append, List.flatMap_append, List.filter_cons]
  split <;> rfl

theorem runRule_length (r : Registry) (file : Source.File) (rule : Rule) :
    (r.runRule file rule).length = (rule.check file).length := by
  rw [runRule]
  split
  · exact List.length_map _
  · rfl

theorem runs_iff_hasSay {front back : List Rule} (hrules : r.rules = front ++ rule :: back) :
    r.runs rule = true ↔ r.HasSay front rule back := by
  have hself : { r with rules := front ++ rule :: back } = r := by rw [← hrules]
  have hreport : ∀ file, r.runAll file =
      (front.filter r.runs).flatMap (r.runRule file) ++
        ((if r.runs rule then r.runRule file rule else []) ++
          (back.filter r.runs).flatMap (r.runRule file)) := by
    intro file
    rw [← runAll_append, hself]
  have hsame : ∀ check, r.runs { rule with check := check } = r.runs rule := fun _ => rfl
  constructor
  · intro hon
    -- one finding more than the rule reports cannot go unseen
    refine ⟨fun file => default :: rule.check file, default, fun heq => ?_⟩
    rw [runAll_append, hreport, hsame, if_pos hon, if_pos hon] at heq
    have hlength := congrArg List.length (List.append_cancel_right (List.append_cancel_left heq))
    rw [runRule_length, runRule_length] at hlength
    simp at hlength
  · rintro ⟨check, file, hne⟩
    by_contra hoff
    apply hne
    rw [runAll_append, hreport, hsame, if_neg hoff, if_neg hoff]

theorem isEnabled_iff :
    r.isEnabled ref = true ↔ ∃ rule, r.StandsFor ref rule ∧ r.runs rule = true := by
  simp only [isEnabled, Option.any_eq_true, find?_eq_some_iff]

theorem standsFor_id (hnodup : (r.rules.map (·.info.id)).Nodup) (hrule : rule ∈ r.rules) :
    r.StandsFor rule.info.id rule := by
  obtain ⟨front, back, hrules⟩ := List.append_of_mem hrule
  refine Or.inl ⟨front, back, hrules, rfl, fun other hother => ?_⟩
  rw [hrules, List.map_append, List.map_cons] at hnodup
  obtain ⟨-, -, hapart⟩ := List.nodup_append.mp hnodup
  exact hapart _ (List.mem_map_of_mem hother) _ List.mem_cons_self

theorem StandsFor.mem (h : r.StandsFor ref rule) : rule ∈ r.rules := by
  obtain ⟨front, back, hrules, -⟩ | ⟨-, front, back, hrules, -⟩ := h <;> simp [hrules]

theorem StandsFor.unique {other : Rule} (h : r.StandsFor ref rule) (h' : r.StandsFor ref other) :
    rule = other := by
  rw [← find?_eq_some_iff] at h h'
  exact Option.some.inj (h.symm.trans h')

theorem isEnabled_id (hnodup : (r.rules.map (·.info.id)).Nodup) (hrule : rule ∈ r.rules) :
    r.isEnabled rule.info.id = true ↔ r.runs rule = true := by
  have hid := standsFor_id hnodup hrule
  rw [isEnabled_iff]
  constructor
  · rintro ⟨other, hother, hon⟩
    rwa [hid.unique hother]
  · exact fun hon => ⟨rule, hid, hon⟩

end

/-- Settings and rules fit together as follows. The rule that is looked up is the one that a reference
stands for. An entry of settings is warned about exactly if it has no effect, once for each time it is
there; without the entries that are warned about the same is reported about every file. And where all
ids are different, a rule is on under its id exactly if its check has a say in what is reported, and a
reference is on exactly if it stands for a rule that is. -/
theorem references_agree (r : Registry) (settings : RuleSettings) :
    (∀ ref rule, r.find? ref = some rule ↔ r.StandsFor ref rule) ∧
    (∀ part ref, (r.warnings settings).countP (fun w => w.part = part ∧ w.ref = ref) =
      if r.Heeds part ref then 0 else (settings.entries part).count ref) ∧
    (∀ w ∈ r.warnings settings, w.part = .options →
      w = .unknownOptions w.ref ∧ ¬r.Knows w.ref ∨
        ∃ rule, r.StandsFor w.ref rule ∧ rule.info.acceptsOptions = false ∧
          w = .noOptions rule.info.name w.ref) ∧
    (∀ file, (r.configure (settings.without (r.warnings settings))).runAll file =
      (r.configure settings).runAll file) ∧
    ((r.rules.map (·.info.id)).Nodup →
      (∀ front rule back, r.rules = front ++ rule :: back →
        ((r.configure settings).isEnabled rule.info.id = true ↔
          (r.configure settings).HasSay front rule back)) ∧
      ∀ ref, (r.configure settings).isEnabled ref = true ↔
        ∃ rule, r.StandsFor ref rule ∧ (r.configure settings).isEnabled rule.info.id = true) := by
  refine ⟨fun ref rule => find?_eq_some_iff, countP_warnings settings, ?_,
    runAll_configure_without r settings, fun hnodup => ?_⟩
  · intro w hw hpart
    have hwarning := warning?_of_mem hw
    rw [hpart] at hwarning
    exact optionsWarning?_eq_some hwarning
  · -- settings change no rule, so ids are different and references stand for what they stood for
    have hnodup' : ((r.configure settings).rules.map (·.info.id)).Nodup := hnodup
    constructor
    · intro front rule back hrules
      have hrule : rule ∈ (r.configure settings).rules := by simp [configure, hrules]
      rw [isEnabled_id hnodup' hrule]
      exact runs_iff_hasSay hrules
    · intro ref
      rw [isEnabled_iff]
      refine exists_congr fun rule => and_congr_right fun hstands => ?_
      exact (isEnabled_id hnodup' hstands.mem).symm

/-- Rules of which two have the id of another one as their name. -/
def crossedRule (id name : String) (acceptsOptions : Bool) : Rule where
  info := { id, name, description := "", category := .problem, severity := .hint, acceptsOptions }
  check := fun _ => []

def crossedRegistry : Registry where
  rules := [crossedRule "T1" "T2" false, crossedRule "T2" "T3" true, crossedRule "T3" "t" false]

/-- Settings with references to rules by ids and by names and to no rule at all. -/
def crossedSettings : RuleSettings where
  disabled := ["T3", "x", "x"]
  severity := [("t", .error), ("y", .hint)]
  options := ["T2", "T3", "t", "z"]

theorem crossedRegistry_agree :
    crossedRegistry.warnings crossedSettings = [.unknownDisabled "x", .unknownDisabled "x",
      .unknownSeverity "y", .noOptions "t" "T3", .noOptions "t" "t", .unknownOptions "z"] ∧
    (crossedRegistry.rules.map (·.info.id)).Nodup ∧
    (crossedRegistry.configure crossedSettings).HasSay [] (crossedRule "T1" "T2" false)
      [crossedRule "T2" "T3" true, crossedRule "T3" "t" false] ∧
    ¬(crossedRegistry.configure crossedSettings).HasSay [crossedRule "T1" "T2" false]
      (crossedRule "T2" "T3" true) [crossedRule "T3" "t" false] ∧
    ¬∃ rule, crossedRegistry.StandsFor "T2" rule ∧
      (crossedRegistry.configure crossedSettings).isEnabled rule.info.id = true := by
  obtain ⟨-, -, -, -, hagree⟩ := references_agree crossedRegistry crossedSettings
  have hnodup : (crossedRegistry.rules.map (·.info.id)).Nodup := by decide
  obtain ⟨hsay, hstands⟩ := hagree hnodup
  refine ⟨by decide, hnodup, ?_, ?_, ?_⟩
  · rw [← hsay _ _ _ rfl]
    decide
  · rw [← hsay _ _ _ rfl]
    decide
  · rw [← hstands]
    decide

end Registry

end Lint
end CastLint
