import CastLint.Proofs.FixRuns

/-! Fixing a text that another run has already worked on. What fixing does depends on the text
alone, so it goes on behind any of its passes as if it had never stopped: with the passes that are
left if the first run came to rest, and with ten more if it ran out of passes. -/

namespace CastLint
namespace Lint

/-- A result as it counts for a text from which other passes led here. -/
def FixResult.behind (done : List FixPass) (s : FixResult) : FixResult :=
  { s with
    fixesApplied := s.fixesApplied + (done.map FixPass.applied).sum
    passes := s.passes + done.length }

section

variable {read : String → Source.File} {find : Source.File → List Diagnostic}
  {text mid stop : String} {done passes : List FixPass}

theorem FixRun.trans (h : FixRun read find text done mid)
    (hrest : FixRun read find mid passes stop) : FixRun read find text (done ++ passes) stop := by
  induction h with
  | refl => exact hrest
  | succ hpass _ ih => exact .succ hpass (ih hrest)

theorem FixRun.exists_rest (h : FixRun read find text done mid)
    (hstop : FixRun read find text passes stop) (hle : done.length ≤ passes.length) :
    ∃ rest, passes = done ++ rest ∧ FixRun read find mid rest stop := by
  induction h generalizing passes with
  | refl => exact ⟨passes, rfl, hstop⟩
  | succ hpass _ ih =>
    cases hstop with
    | refl => simp at hle
    | succ hpass' hrun' =>
      obtain rfl := Except.ok.inj (hpass.symm.trans hpass')
      obtain ⟨rest, rfl, hrest⟩ := ih hrun' (by simpa using hle)
      exact ⟨rest, rfl, hrest⟩

theorem FixRun.exists_take (h : FixRun read find text passes stop) (k : ℕ) :
    ∃ mid, FixRun read find text (passes.take k) mid := by
  induction h generalizing k with
  | @refl text => exact ⟨text, by simpa using .refl⟩
  | @succ text _ _ _ hpass _ ih =>
    cases k with
    | zero => exact ⟨text, .refl⟩
    | succ k =>
      obtain ⟨mid, hmid⟩ := ih k
      exact ⟨mid, .succ hpass hmid⟩

theorem FixRun.fixUpTo_eq (h : FixRun read find text done mid)
    (hchanging : ∀ p ∈ done, 0 < p.applied) (left : ℕ) :
    fixUpTo read find (done.length + left) text =
      (fixUpTo read find left mid).map (FixResult.behind done) := by
  induction h with
  | refl =>
    rw [List.length_nil, Nat.zero_add]
    cases fixUpTo read find left _ <;> rfl
  | @succ text stop pass passes hpass _ ih =>
    obtain ⟨happlied, hrest⟩ := List.forall_mem_cons.mp hchanging
    have hstep : fixUpTo read find (passes.length + left) pass.output =
        (fixUpTo read find left stop).map (FixResult.behind passes) := ih hrest
    rw [List.length_cons, Nat.add_right_comm]
    cases hleft : fixUpTo read find left stop with
    | error err =>
      rw [hleft] at hstep
      exact fixUpTo_succ_eq_error_iff.mpr (Or.inr ⟨pass, hpass, happlied, hstep⟩)
    | ok s =>
      rw [hleft] at hstep
      refine fixUpTo_succ_eq_ok_iff.mpr ⟨pass, hpass, Or.inr ⟨happlied, _, hstep, ?_⟩⟩
      simp only [FixResult.behind, List.map_cons, List.sum_cons, List.length_cons,
        FixResult.mk.injEq, true_and, and_true]
      omega

theorem fixUpTo_add_of_converged {left : ℕ} {r : FixResult}
    (h : fixUpTo read find left text = .ok r) (hconverged : r.converged = true) (more : ℕ) :
    fixUpTo read find (left + more) text = .ok r := by
  induction left generalizing text r with
  | zero =>
    obtain ⟨passes, haccounts⟩ := fixUpTo_accounts h
    obtain rfl := Except.ok.inj h
    cases more with
    | zero => exact h
    | succ more =>
      have hnone := haccounts.converged.mp hconverged
      rw [Nat.zero_add, fixUpTo_eq_of_no_fixes hnone]
      simpa using hconverged.symm
  | succ left ih =>
    rw [Nat.add_right_comm]
    obtain ⟨pass, hpass, hrest | ⟨happlied, s, hs, rfl⟩⟩ := fixUpTo_succ_eq_ok_iff.mp h
    · exact fixUpTo_succ_eq_ok_iff.mpr ⟨pass, hpass, Or.inl hrest⟩
    · exact fixUpTo_succ_eq_ok_iff.mpr
        ⟨pass, hpass, Or.inr ⟨happlied, s, ih hs hconverged, rfl⟩⟩

/-- Fixing that came to rest does so from each text on its way, with the passes that were left. -/
theorem FixRun.resume {left : ℕ} {r : FixResult} (hrun : FixRun read find text done mid)
    (h : fixUpTo read find left text = .ok r) (hconverged : r.converged = true)
    (hle : done.length ≤ r.passes) :
    ∃ s, fixUpTo read find left mid = .ok s ∧ r = s.behind done := by
  obtain ⟨passes, haccounts⟩ := fixUpTo_accounts h
  obtain ⟨rest, rfl, -⟩ := hrun.exists_rest haccounts.run (hle.trans_eq haccounts.length.symm)
  have hchanging : ∀ p ∈ done, 0 < p.applied := fun p hp =>
    haccounts.changing p (List.mem_append_left rest hp)
  obtain ⟨spare, rfl⟩ := Nat.exists_eq_add_of_le (hle.trans haccounts.limit)
  rw [hrun.fixUpTo_eq hchanging spare] at h
  cases hs : fixUpTo read find spare mid with
  | error err => simp [hs, Except.map] at h
  | ok s =>
    obtain rfl : s.behind done = r := by simpa [hs, Except.map] using h
    have hmore := fixUpTo_add_of_converged hs hconverged done.length
    rw [Nat.add_comm] at hmore
    exact ⟨s, hmore, rfl⟩

end

/-- Fixing that came to rest gives the same again from every text on its way, and fixing its output
changes nothing. Fixing that did not come to rest goes on from its output: both runs together are
one with twenty passes. -/
theorem fixText_resumes (engine : Engine) (name text : String) (r : FixResult)
    (h : fixText engine name text = .ok r) :
    (∀ k ≤ r.passes, ∃ done mid, done.length = k ∧
      FixRun (Source.File.ofText name) engine.analyze text done mid) ∧
    (r.converged = true →
      (∀ done mid, FixRun (Source.File.ofText name) engine.analyze text done mid →
        done.length ≤ r.passes →
          (done.map FixPass.applied).sum ≤ r.fixesApplied ∧
          fixText engine name mid = .ok
            { output := r.output
              fixesApplied := r.fixesApplied - (done.map FixPass.applied).sum
              passes := r.passes - done.length
              converged := true
              diagnostics := r.diagnostics }) ∧
      fixText engine name r.output = .ok ⟨r.output, 0, 0, true, r.diagnostics⟩) ∧
    (r.converged = false →
      ∃ done, done.length = 10 ∧
        FixRun (Source.File.ofText name) engine.analyze text done r.output ∧
        (∀ more stop, FixRun (Source.File.ofText name) engine.analyze r.output more stop →
          FixRun (Source.File.ofText name) engine.analyze text (done ++ more) stop) ∧
        fixUpTo (Source.File.ofText name) engine.analyze 20 text =
          (fixText engine name r.output).map fun s =>
            { s with fixesApplied := s.fixesApplied + r.fixesApplied, passes := s.passes + 10 }) := by
  obtain ⟨passes, haccounts⟩ := fixUpTo_accounts h
  have hresume : r.converged = true → ∀ done mid,
      FixRun (Source.File.ofText name) engine.analyze text done mid → done.length ≤ r.passes →
        (done.map FixPass.applied).sum ≤ r.fixesApplied ∧
        fixText engine name mid = .ok ⟨r.output, r.fixesApplied - (done.map FixPass.applied).sum,
          r.passes - done.length, true, r.diagnostics⟩ := by
    intro hconverged done mid hrun hle
    obtain ⟨s, hs, rfl⟩ := hrun.resume h hconverged hle
    refine ⟨Nat.le_add_left _ _, ?_⟩
    have hs' : s.converged = true := hconverged
    rw [fixText, hs, ← hs']
    simp [FixResult.behind]
  refine ⟨?_, ?_, ?_⟩
  · intro k hk
    obtain ⟨mid, hmid⟩ := haccounts.run.exists_take k
    refine ⟨passes.take k, mid, ?_, hmid⟩
    rw [List.length_take, haccounts.length, Nat.min_eq_left hk]
  · intro hconverged
    refine ⟨hresume hconverged, ?_⟩
    have hend := (hresume hconverged passes r.output haccounts.run haccounts.length.le).2
    rwa [← haccounts.applied, haccounts.length, Nat.sub_self, Nat.sub_self] at hend
  · intro hconverged
    have hlength : passes.length = 10 := haccounts.length.trans (haccounts.exhausted hconverged)
    refine ⟨passes, hlength, haccounts.run, fun more stop hmore => haccounts.run.trans hmore, ?_⟩
    have htwenty := haccounts.run.fixUpTo_eq haccounts.changing 10
    rw [hlength] at htwenty
    rw [htwenty, fixText, maxFixPasses, haccounts.applied, ← hlength]
    rfl

/-- A cast inside a cast takes two passes. -/
def twoPassText : String := "f(a as jest.Mock) as jest.Mock;"

theorem twoPassText_resumes :
    fixText {} "a.ts" twoPassText = .ok ⟨"jest.mocked(f(jest.mocked(a)));", 2, 2, true, []⟩ ∧
    FixRun (Source.File.ofText "a.ts") ({} : Engine).analyze twoPassText
      [⟨"jest.mocked(f(a as jest.Mock));", 1, 1⟩] "jest.mocked(f(a as jest.Mock));" ∧
    fixText {} "a.ts" "jest.mocked(f(a as jest.Mock));" =
      .ok ⟨"jest.mocked(f(jest.mocked(a)));", 1, 1, true, []⟩ := by
  have hfix : fixText {} "a.ts" twoPassText =
      .ok ⟨"jest.mocked(f(jest.mocked(a)));", 2, 2, true, []⟩ := by
    decide +kernel
  have hrun : FixRun (Source.File.ofText "a.ts") ({} : Engine).analyze twoPassText
      [⟨"jest.mocked(f(a as jest.Mock));", 1, 1⟩] "jest.mocked(f(a as jest.Mock));" :=
    .succ (by decide +kernel) .refl
  exact ⟨hfix, hrun, (((fixText_resumes {} "a.ts" twoPassText _ hfix).2.1 rfl).1 _ _ hrun
    (by decide)).2⟩

end Lint
end CastLint
