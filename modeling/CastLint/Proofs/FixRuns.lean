import CastLint.Proofs.FixPass
import Mathlib.Algebra.Ring.Nat

/-! Fixing a text pass by pass. Both ways in which fixing ends say the same about what is left: a
pass takes an edit whenever there is one, so it applies nothing only if no finding has a fix. How
texts are read and what is found in them does not matter for this. -/

namespace CastLint
namespace Lint

def fixOnce (read : String → Source.File) (find : Source.File → List Diagnostic) (text : String) :
    Except InvalidRange FixPass :=
  applyFixes (read text) (find (read text))

/-- Passes from one text to another, each of them over the output of the one before. -/
inductive FixRun (read : String → Source.File) (find : Source.File → List Diagnostic) :
    String → List FixPass → String → Prop
  | refl {text} : FixRun read find text [] text
  | succ {text stop pass passes} : fixOnce read find text = .ok pass →
      FixRun read find pass.output passes stop → FixRun read find text (pass :: passes) stop

section

variable {read : String → Source.File} {find : Source.File → List Diagnostic} {text : String}

theorem takenEdits_eq_nil_iff {edits : List Edit} : takenEdits edits = [] ↔ edits = [] := by
  obtain ⟨rest, hperm, hrest⟩ := takenEdits_rest edits
  constructor
  · -- without an edit that is taken there is none that could block another
    intro hnil
    rw [hnil] at hperm hrest
    have hempty : rest = [] := by
      apply List.eq_nil_iff_forall_not_mem.mpr
      intro f hf
      obtain ⟨e, he, -⟩ := hrest f hf
      simp at he
    rw [hempty] at hperm
    exact hperm.eq_nil
  · rintro rfl
    rfl

theorem isFixable_eq_false_iff {d : Diagnostic} : d.isFixable = false ↔ d.fixes = [] := by
  simp [Diagnostic.isFixable]

theorem applied_eq_zero_iff {file : Source.File} {diagnostics : List Diagnostic} {pass : FixPass}
    (h : applyFixes file diagnostics = .ok pass) :
    pass.applied = 0 ↔ ∀ d ∈ diagnostics, d.fixes = [] := by
  obtain ⟨edits, hedits, rfl⟩ := applyFixes_eq_ok_iff.mp h
  have hcount : edits.length = diagnostics.countP Diagnostic.isFixable := by
    rw [← firstFixes_length, hedits.length_eq]
  simp only [List.length_eq_zero_iff, takenEdits_eq_nil_iff]
  rw [← List.length_eq_zero_iff, hcount, List.countP_eq_zero]
  simp only [Bool.not_eq_true, isFixable_eq_false_iff]

theorem fixUpTo_succ_eq_ok_iff {left : ℕ} {r : FixResult} :
    fixUpTo read find (left + 1) text = .ok r ↔
      ∃ pass, fixOnce read find text = .ok pass ∧
        (pass.applied = 0 ∧ r = ⟨text, 0, 0, true, find (read text)⟩ ∨
          0 < pass.applied ∧ ∃ s, fixUpTo read find left pass.output = .ok s ∧
            r = { s with fixesApplied := s.fixesApplied + pass.applied, passes := s.passes + 1 }) := by
  rw [fixUpTo, fixOnce]
  cases applyFixes (read text) (find (read text)) with
  | error err => simp
  | ok pass =>
    simp only [Except.ok.injEq, exists_eq_left']
    by_cases hzero : pass.applied = 0
    · simp [hzero, eq_comm]
    · simp only [hzero, if_false, false_and, false_or, Nat.pos_of_ne_zero hzero, true_and]
      cases fixUpTo read find left pass.output with
      | error err => simp
      | ok s => simp [eq_comm]

theorem fixUpTo_succ_eq_error_iff {left : ℕ} {err : InvalidRange} :
    fixUpTo read find (left + 1) text = .error err ↔
      fixOnce read find text = .error err ∨
        ∃ pass, fixOnce read find text = .ok pass ∧ 0 < pass.applied ∧
          fixUpTo read find left pass.output = .error err := by
  rw [fixUpTo, fixOnce]
  cases applyFixes (read text) (find (read text)) with
  | error err => simp
  | ok pass =>
    simp only [Except.ok.injEq, exists_eq_left', reduceCtorEq, false_or]
    by_cases hzero : pass.applied = 0
    · simp [hzero]
    · simp only [if_neg hzero, Nat.pos_of_ne_zero hzero, true_and]
      cases fixUpTo read find left pass.output with
      | error err => simp
      | ok s => simp

/-- What a result tells about the run that led to it, when `left` passes were allowed. -/
structure Accounts (read : String → Source.File) (find : Source.File → List Diagnostic)
    (text : String) (left : ℕ) (r : FixResult) (passes : List FixPass) : Prop where
  run : FixRun read find text passes r.output
  length : passes.length = r.passes
  limit : r.passes ≤ left
  changing : ∀ p ∈ passes, 0 < p.applied
  applied : r.fixesApplied = (passes.map FixPass.applied).sum
  diagnostics : r.diagnostics = find (read r.output)
  converged : r.converged = true ↔ ∀ d ∈ r.diagnostics, d.fixes = []
  exhausted : r.converged = false → r.passes = left

theorem accounts_stop {left : ℕ} {converged : Bool}
    (hconverged : converged = true ↔ ∀ d ∈ find (read text), d.fixes = [])
    (hexhausted : converged = false → left = 0) :
    Accounts read find text left ⟨text, 0, 0, converged, find (read text)⟩ [] where
  run := .refl
  length := rfl
  limit := Nat.zero_le left
  changing := by simp
  applied := rfl
  diagnostics := rfl
  converged := hconverged
  exhausted h := (hexhausted h).symm

theorem Accounts.cons {left : ℕ} {pass : FixPass} {s : FixResult} {passes : List FixPass}
    (hpass : fixOnce read find text = .ok pass) (happlied : 0 < pass.applied)
    (h : Accounts read find pass.output left s passes) :
    Accounts read find text (left + 1)
      { s with fixesApplied := s.fixesApplied + pass.applied, passes := s.passes + 1 }
      (pass :: passes) where
  run := .succ hpass h.run
  length := by simp [h.length]
  limit := Nat.succ_le_succ h.limit
  changing := List.forall_mem_cons.mpr ⟨happlied, h.changing⟩
  applied := by
    rw [List.map_cons, List.sum_cons, ← h.applied]
    exact Nat.add_comm _ _
  diagnostics := h.diagnostics
  converged := h.converged
  exhausted hno := congrArg (· + 1) (h.exhausted hno)

theorem fixUpTo_accounts {left : ℕ} {r : FixResult} (h : fixUpTo read find left text = .ok r) :
    ∃ passes, Accounts read find text left r passes := by
  induction left generalizing text r with
  | zero =>
    rw [fixUpTo] at h
    obtain rfl := Except.ok.inj h
    refine ⟨[], accounts_stop ?_ fun _ => rfl⟩
    simp [Diagnostic.isFixable]
  | succ left ih =>
    obtain ⟨pass, hpass, ⟨hzero, rfl⟩ | ⟨happlied, s, hs, rfl⟩⟩ := fixUpTo_succ_eq_ok_iff.mp h
    · have hnone := (applied_eq_zero_iff hpass).mp hzero
      exact ⟨[], accounts_stop (by simpa using hnone) (by simp)⟩
    · obtain ⟨passes, hpasses⟩ := ih hs
      exact ⟨pass :: passes, hpasses.cons hpass happlied⟩

/-- Fixing fails exactly if a pass fails that is made before the limit is reached. -/
theorem fixUpTo_eq_error_iff {left : ℕ} {err : InvalidRange} :
    fixUpTo read find left text = .error err ↔
      ∃ passes stop, FixRun read find text passes stop ∧ passes.length < left ∧
        (∀ p ∈ passes, 0 < p.applied) ∧ fixOnce read find stop = .error err := by
  induction left generalizing text with
  | zero => simp [fixUpTo]
  | succ left ih =>
    rw [fixUpTo_succ_eq_error_iff]
    simp only [ih]
    constructor
    · rintro (hfail | ⟨pass, hpass, happlied, passes, stop, hrun, hlength, hchanging, hfail⟩)
      · exact ⟨[], text, .refl, by simp, by simp, hfail⟩
      · exact ⟨pass :: passes, stop, .succ hpass hrun, by simpa using hlength,
          List.forall_mem_cons.mpr ⟨happlied, hchanging⟩, hfail⟩
    · rintro ⟨passes, stop, hrun, hlength, hchanging, hfail⟩
      cases hrun with
      | refl => exact Or.inl hfail
      | @succ _ _ pass passes hpass hrun =>
        obtain ⟨happlied, hrest⟩ := List.forall_mem_cons.mp hchanging
        exact Or.inr ⟨pass, hpass, happlied, passes, stop, hrun, by simpa using hlength, hrest, hfail⟩

/-- Passes that change something come to an end: at the limit, or at a text where no further pass
does. -/
theorem exists_fixRun_stop (read : String → Source.File) (find : Source.File → List Diagnostic)
    (text : String) (left : ℕ) :
    ∃ passes stop, FixRun read find text passes stop ∧ (∀ p ∈ passes, 0 < p.applied) ∧
      passes.length ≤ left ∧
      (passes.length = left ∨ ∀ p, fixOnce read find stop = .ok p → p.applied = 0) := by
  induction left generalizing text with
  | zero => exact ⟨[], text, .refl, by simp, by simp, Or.inl rfl⟩
  | succ left ih =>
    by_cases hgoes : ∃ pass, fixOnce read find text = .ok pass ∧ 0 < pass.applied
    · obtain ⟨pass, hpass, happlied⟩ := hgoes
      obtain ⟨passes, stop, hrun, hchanging, hlength, hstop⟩ := ih pass.output
      refine ⟨pass :: passes, stop, .succ hpass hrun, List.forall_mem_cons.mpr ⟨happlied, hchanging⟩,
        by simpa using hlength, ?_⟩
      simpa using hstop
    · refine ⟨[], text, .refl, by simp, by simp, Or.inr ?_⟩
      intro pass hpass
      by_contra hne
      exact hgoes ⟨pass, hpass, Nat.pos_of_ne_zero hne⟩

theorem Accounts.changed_iff {left : ℕ} {r : FixResult} {passes : List FixPass}
    (h : Accounts read find text left r passes) : r.changed = true ↔ 0 < r.passes := by
  rw [FixResult.changed, decide_eq_true_eq, h.applied, ← h.length]
  cases passes with
  | nil => simp
  | cons p passes =>
    have hp := h.changing p (by simp)
    simp only [List.map_cons, List.sum_cons, List.length_cons]
    omega

theorem fixUpTo_eq_of_no_fixes (h : ∀ d ∈ find (read text), d.fixes = []) (left : ℕ) :
    fixUpTo read find (left + 1) text = .ok ⟨text, 0, 0, true, find (read text)⟩ := by
  have hfirst : firstFixes (find (read text)) = [] := by
    rw [List.eq_nil_iff_forall_not_mem]
    intro fix hfix
    obtain ⟨d, hd, hhead⟩ := mem_firstFixes.mp hfix
    simp [h d hd] at hhead
  obtain ⟨pass, hpass⟩ : ∃ pass, fixOnce read find text = .ok pass := by
    rw [fixOnce, exists_applyFixes_iff, hfirst]
    simp
  exact fixUpTo_succ_eq_ok_iff.mpr ⟨pass, hpass, Or.inl ⟨(applied_eq_zero_iff hpass).mpr h, rfl⟩⟩

end

theorem fixText_eq_of_no_fixes {engine : Engine} {name text : String}
    (h : ∀ d ∈ engine.analyze (Source.File.ofText name text), d.fixes = []) :
    fixText engine name text =
      .ok ⟨text, 0, 0, true, engine.analyze (Source.File.ofText name text)⟩ :=
  fixUpTo_eq_of_no_fixes h 9

/-- Fixing makes at most ten passes. A result tells the text behind them, the fixes they applied
and what is found in that text; it is converged unless a finding with a fix is left behind the tenth
pass. Fixing fails exactly if one of its passes does. -/
theorem fixText_correct (engine : Engine) (name text : String) :
    (∃ passes stop, FixRun (Source.File.ofText name) engine.analyze text passes stop ∧
      (∀ p ∈ passes, 0 < p.applied) ∧ passes.length ≤ 10 ∧
      (passes.length = 10 ∨
        ∀ p, fixOnce (Source.File.ofText name) engine.analyze stop = .ok p → p.applied = 0)) ∧
    (∀ r, fixText engine name text = .ok r →
      r.passes ≤ 10 ∧
      (∃ passes, FixRun (Source.File.ofText name) engine.analyze text passes r.output ∧
        passes.length = r.passes ∧ (∀ p ∈ passes, 0 < p.applied) ∧
        r.fixesApplied = (passes.map FixPass.applied).sum) ∧
      (r.changed = true ↔ 0 < r.passes) ∧
      r.diagnostics = engine.analyze (Source.File.ofText name r.output) ∧
      (r.converged = true ↔ ∀ d ∈ r.diagnostics, d.fixes = []) ∧
      (r.converged = false → r.passes = 10)) ∧
    ∀ err, fixText engine name text = .error err ↔
      ∃ passes stop, FixRun (Source.File.ofText name) engine.analyze text passes stop ∧
        passes.length < 10 ∧ (∀ p ∈ passes, 0 < p.applied) ∧
        fixOnce (Source.File.ofText name) engine.analyze stop = .error err := by
  refine ⟨exists_fixRun_stop _ _ text 10, ?_, fun err => fixUpTo_eq_error_iff⟩
  intro r hr
  obtain ⟨passes, h⟩ := fixUpTo_accounts hr
  exact ⟨h.limit, ⟨passes, h.run, h.length, h.changing, h.applied⟩, h.changed_iff, h.diagnostics,
    h.converged, h.exhausted⟩

end Lint
end CastLint
