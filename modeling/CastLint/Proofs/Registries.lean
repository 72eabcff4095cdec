import CastLint.Lint.Engine
import Mathlib.Data.List.Induction

/-! Registries as steps build them. Rules are added and configurations are taken over in any order,
and only the last configuration has a say in what the rules report, whichever came first: it or a
rule. -/

namespace CastLint
namespace Lint

inductive RegistryStep where
  | register (rule : Rule)
  | configure (settings : RuleSettings)

namespace RegistryStep

def rule? : RegistryStep → Option Rule
  | register rule => some rule
  | configure _ => none

def settings? : RegistryStep → Option RuleSettings
  | register _ => none
  | configure settings => some settings

def rulesOf (steps : List RegistryStep) : List Rule := steps.filterMap rule?

/-- The settings in the last configuration of all, or those that say nothing. -/
def lastSettings (steps : List RegistryStep) : RuleSettings :=
  (steps.filterMap settings?).getLast?.getD {}

theorem rulesOf_append_singleton (steps : List RegistryStep) (s : RegistryStep) :
    rulesOf (steps ++ [s]) = rulesOf steps ++ s.rule?.toList := by
  cases s <;> simp [rulesOf, rule?]

theorem lastSettings_append_singleton (steps : List RegistryStep) (s : RegistryStep) :
    lastSettings (steps ++ [s]) = s.settings?.getD (lastSettings steps) := by
  cases s <;> simp [lastSettings, settings?]

theorem rulesOf_register (present : List Rule) (settings : RuleSettings) :
    rulesOf (present.map .register ++ [.configure settings]) = present := by
  simp [rulesOf, rule?, List.filterMap_map, Function.comp_def]

end RegistryStep

/-- The severity that settings give to a rule: under its id, else under its name. -/
def RuleSettings.severityOf? (settings : RuleSettings) (rule : Rule) : Option Severity :=
  match settings.severity.lookup rule.info.id with
  | some severity => some severity
  | none => settings.severity.lookup rule.info.name

def RuleSettings.SwitchesOff (settings : RuleSettings) (rule : Rule) : Prop :=
  rule.info.id ∈ settings.disabled ∨ rule.info.name ∈ settings.disabled

instance switchesOffDecidable (settings : RuleSettings) (rule : Rule) :
    Decidable (settings.SwitchesOff rule) :=
  inferInstanceAs (Decidable (_ ∨ _))

def RuleSettings.grade (settings : RuleSettings) (rule : Rule) (d : Diagnostic) : Diagnostic :=
  { d with severity := (settings.severityOf? rule).getD d.severity }

namespace Registry

open RegistryStep

def step (r : Registry) : RegistryStep → Registry
  | .register rule => r.register rule
  | .configure settings => r.configure settings

def build (steps : List RegistryStep) : Registry := steps.foldl step {}

theorem build_append_singleton (steps : List RegistryStep) (s : RegistryStep) :
    build (steps ++ [s]) = (build steps).step s := by
  rw [build, List.foldl_append, List.foldl_cons, List.foldl_nil, build]

/-- A registry has some rules and goes by some settings. -/
structure Holds (r : Registry) (rules : List Rule) (settings : RuleSettings) : Prop where
  rules : r.rules = rules
  disabled : r.disabled = settings.disabled
  severity : r.severity = settings.severity

section

variable {r other : Registry} {present : List Rule} {settings : RuleSettings}

theorem Holds.unique (h : r.Holds present settings) (h' : other.Holds present settings) :
    r = other := by
  obtain ⟨rules, disabled, severity⟩ := r
  obtain ⟨rules', disabled', severity'⟩ := other
  obtain ⟨rfl, rfl, rfl⟩ := h
  obtain ⟨rfl, rfl, rfl⟩ := h'
  rfl

/-- A step adds a rule and keeps the settings, or keeps the rules and leaves nothing of the settings
before. -/
theorem Holds.step (h : r.Holds present settings) (s : RegistryStep) :
    (r.step s).Holds (present ++ s.rule?.toList) (s.settings?.getD settings) := by
  obtain ⟨hrules, hdisabled, hseverity⟩ := h
  cases s with
  | register rule => exact ⟨by simp [Registry.step, register, rule?, hrules], hdisabled, hseverity⟩
  | configure later => exact ⟨by simp [Registry.step, configure, rule?, hrules], rfl, rfl⟩

theorem Holds.runs_iff (h : r.Holds present settings) (rule : Rule) :
    r.runs rule = true ↔ ¬settings.SwitchesOff rule := by
  simp [runs, h.disabled, RuleSettings.SwitchesOff]

theorem Holds.severityOf?_eq (h : r.Holds present settings) (rule : Rule) :
    r.severityOf? rule = settings.severityOf? rule := by
  rw [Registry.severityOf?, RuleSettings.severityOf?, h.severity]
  cases settings.severity.lookup rule.info.id <;> rfl

theorem Holds.runRule_eq (h : r.Holds present settings) (file : Source.File) (rule : Rule) :
    r.runRule file rule = (rule.check file).map (settings.grade rule) := by
  rw [Registry.runRule, h.severityOf?_eq]
  unfold RuleSettings.grade
  cases settings.severityOf? rule with
  | some severity => rfl
  | none => exact (List.map_id _).symm

theorem Holds.runAll_eq (h : r.Holds present settings) (file : Source.File) :
    r.runAll file = (present.filter (¬settings.SwitchesOff ·)).flatMap fun rule =>
      (rule.check file).map (settings.grade rule) := by
  have hfilter : present.filter r.runs = present.filter (¬settings.SwitchesOff ·) := by
    refine List.filter_congr fun rule _ => ?_
    rw [Bool.eq_iff_iff, h.runs_iff, decide_eq_true_iff]
  have hrule : r.runRule file = fun rule => (rule.check file).map (settings.grade rule) :=
    funext (h.runRule_eq file)
  rw [Registry.runAll, h.rules, hfilter, hrule]

end

/-- What a registry has after some steps depends on the rules and the last settings in them. -/
theorem build_holds (steps : List RegistryStep) :
    (build steps).Holds (rulesOf steps) (lastSettings steps) := by
  induction steps using List.reverseRecOn with
  | nil => exact ⟨rfl, rfl, rfl⟩
  | append_singleton steps s ih =>
    rw [build_append_singleton, rulesOf_append_singleton, lastSettings_append_singleton]
    exact ih.step s

/-- A registry reports, rule by rule in the order in which the rules came, what the checks find of
those that the last settings leave on, with the severities that the last settings give them. All
steps together do what adding the rules and then taking over the last settings does. -/
theorem runAll_build (steps : List RegistryStep) (file : Source.File) :
    (build steps).runAll file =
        ((rulesOf steps).filter (¬(lastSettings steps).SwitchesOff ·)).flatMap (fun rule =>
          (rule.check file).map ((lastSettings steps).grade rule)) ∧
      build steps =
        build ((rulesOf steps).map .register ++ [.configure (lastSettings steps)]) := by
  have hholds := build_holds steps
  refine ⟨hholds.runAll_eq file, hholds.unique ?_⟩
  have hsame := build_holds ((rulesOf steps).map .register ++ [.configure (lastSettings steps)])
  rwa [rulesOf_register, lastSettings_append_singleton] at hsame

example (settings : RuleSettings) : (Engine.ofSettings settings).registry =
    build [.register PreferMocked.rule, .configure settings] := rfl

end Registry

end Lint
end CastLint
