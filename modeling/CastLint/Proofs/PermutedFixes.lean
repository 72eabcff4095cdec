import CastLint.Proofs.ByteOrderMark
import Mathlib.Data.List.Perm.Basic

/-! Fixes in another order. A pass sorts its edits by their ranges, so the order of the findings
can only show where two edits have one range. Whether a pass fails does not depend on the order
either, but which fix it fails for does: it is the first one in the list without a range. -/

namespace CastLint
namespace Lint

namespace Edit

/-- Edits of one range put the same text there. -/
def Agree (edits : List Edit) : Prop :=
  ∀ e ∈ edits, ∀ f ∈ edits, e.SameRange f → e.text = f.text

instance sameRangeDecidable (e f : Edit) : Decidable (e.SameRange f) :=
  inferInstanceAs (Decidable (_ ∧ _))

instance agreeDecidable (edits : List Edit) : Decidable (Agree edits) :=
  inferInstanceAs (Decidable (∀ e ∈ edits, ∀ f ∈ edits, _))

theorem sameRange_of_precedes {e f : Edit} (hef : e.precedes f = true)
    (hfe : f.precedes e = true) : e.SameRange f := by
  rw [precedes_iff] at hef hfe
  have hstart : e.start = f.start := by omega
  have hstop : e.stop = f.stop := by omega
  exact ⟨hstart, hstop⟩

theorem sort_sameRange {edits others : List Edit} (h : others.Perm edits) :
    List.Forall₂ SameRange (sort others) (sort edits) := by
  let range : Edit → ℕ × ℕ := fun e => (e.start, e.stop)
  have hperm : ((sort others).map range).Perm ((sort edits).map range) :=
    (((sort_perm others).trans h).trans (sort_perm edits).symm).map range
  have hsorted : ∀ es : List Edit, ((sort es).map range).Pairwise fun a b =>
      a.1 < b.1 ∨ a.1 = b.1 ∧ b.2 ≤ a.2 := by
    intro es
    rw [List.pairwise_map]
    exact (sort_sorted es).imp precedes_iff.mp
  have hantisymm : ∀ a b : ℕ × ℕ, a ∈ (sort others).map range → b ∈ (sort edits).map range →
      (a.1 < b.1 ∨ a.1 = b.1 ∧ b.2 ≤ a.2) → (b.1 < a.1 ∨ b.1 = a.1 ∧ a.2 ≤ b.2) → a = b := by
    intro a b _ _ hab hba
    exact Prod.ext (by omega) (by omega)
  -- two sorted lists of the same ranges are equal, although edits of one range may change places
  have hranges : (sort others).map range = (sort edits).map range :=
    hperm.eq_of_pairwise hantisymm (hsorted others) (hsorted edits)
  have hsame : List.Forall₂ Eq ((sort others).map range) ((sort edits).map range) := by
    rw [hranges, List.forall₂_eq_eq_eq]
  rw [List.forall₂_map_left_iff, List.forall₂_map_right_iff] at hsame
  exact hsame.imp fun e f heq => Prod.mk.inj heq

theorem sort_eq_of_perm {edits others : List Edit} (h : others.Perm edits) (hagree : Agree edits) :
    sort others = sort edits := by
  have hperm : (sort others).Perm (sort edits) :=
    ((sort_perm others).trans h).trans (sort_perm edits).symm
  refine hperm.eq_of_pairwise ?_ (sort_sorted others) (sort_sorted edits)
  intro e f he hf hef hfe
  have hsame : e.SameRange f := sameRange_of_precedes hef hfe
  have he : e ∈ edits := h.mem_iff.mp ((sort_perm others).mem_iff.mp he)
  have hf : f ∈ edits := (sort_perm edits).mem_iff.mp hf
  have htext : e.text = f.text := hagree e he f hf hsame
  obtain ⟨hstart, hstop⟩ := hsame
  cases e
  cases f
  simp_all

end Edit

theorem takenEdits_length_of_perm {edits others : List Edit} (h : others.Perm edits) :
    (takenEdits others).length = (takenEdits edits).length :=
  (Edit.forall₂_select 0 (Edit.sort_sameRange h)).length_eq

theorem resolve_eq_error_iff {file : Source.File} {fix : Fix} {err : InvalidRange} :
    resolve file fix = .error err ↔
      (¬∃ e, Resolves file fix e) ∧ err = ⟨fix.title, file.name, fix.range⟩ := by
  simp only [← resolve_eq_ok_iff]
  unfold resolve
  split
  · split <;> simp [eq_comm]
  · simp [eq_comm]

theorem resolveAll_cons_eq_error_iff {file : Source.File} {fix : Fix} {fixes : List Fix}
    {err : InvalidRange} :
    resolveAll file (fix :: fixes) = .error err ↔
      resolve file fix = .error err ∨
        (∃ e, Resolves file fix e) ∧ resolveAll file fixes = .error err := by
  simp only [← resolve_eq_ok_iff]
  rw [resolveAll]
  cases resolve file fix with
  | error err' => simp
  | ok e => cases resolveAll file fixes <;> simp

theorem resolveAll_eq_error_iff {file : Source.File} {fixes : List Fix} {err : InvalidRange} :
    resolveAll file fixes = .error err ↔
      ∃ before fix after, fixes = before ++ fix :: after ∧
        (∀ f ∈ before, ∃ e, Resolves file f e) ∧ (¬∃ e, Resolves file fix e) ∧
        err = ⟨fix.title, file.name, fix.range⟩ := by
  induction fixes with
  | nil => simp [resolveAll]
  | cons first fixes ih =>
    rw [resolveAll_cons_eq_error_iff, resolve_eq_error_iff, ih]
    constructor
    · rintro (hfirst | ⟨hfirst, before, fix, after, rfl, hbefore, hfix⟩)
      · exact ⟨[], first, fixes, rfl, by simp, hfirst⟩
      · exact ⟨first :: before, fix, after, rfl, List.forall_mem_cons.mpr ⟨hfirst, hbefore⟩, hfix⟩
    · rintro ⟨before, fix, after, hsplit, hbefore, hfix⟩
      cases before with
      | nil =>
        obtain ⟨rfl, -⟩ := List.cons.inj hsplit
        exact Or.inl hfix
      | cons f before =>
        obtain ⟨rfl, rfl⟩ := List.cons.inj hsplit
        obtain ⟨hfirst, hbefore⟩ := List.forall_mem_cons.mp hbefore
        exact Or.inr ⟨hfirst, before, fix, after, rfl, hbefore, hfix⟩

theorem applyFixes_eq_error_iff {file : Source.File} {diagnostics : List Diagnostic}
    {err : InvalidRange} :
    applyFixes file diagnostics = .error err ↔
      resolveAll file (firstFixes diagnostics) = .error err := by
  rw [applyFixes]
  cases resolveAll file (firstFixes diagnostics) <;> simp

theorem exists_applyFixes_error_iff {file : Source.File} {diagnostics : List Diagnostic} :
    (∃ err, applyFixes file diagnostics = .error err) ↔
      ¬∀ fix ∈ firstFixes diagnostics, ∃ e, Resolves file fix e := by
  rw [← exists_applyFixes_iff]
  cases applyFixes file diagnostics <;> simp

theorem exists_perm_resolves {file : Source.File} {diagnostics others : List Diagnostic}
    {edits : List Edit} (h : others.Perm diagnostics)
    (hedits : List.Forall₂ (Resolves file) (firstFixes diagnostics) edits) :
    ∃ edits', List.Forall₂ (Resolves file) (firstFixes others) edits' ∧ edits'.Perm edits := by
  have hfixes : (firstFixes others).Perm (firstFixes diagnostics) := h.filterMap _
  exact List.perm_comp_forall₂ hfixes hedits

/-- A pass fails for findings in one order exactly if it fails for them in any other one. If it
succeeds, then it takes and leaves out as many fixes in any order, and unless two fixes have one
range and different texts its output is the same too. If it fails, then for the first fix in the
list that has no range, no matter whether an earlier one overlaps it. -/
theorem applyFixes_perm (file : Source.File) (diagnostics : List Diagnostic) :
    (∀ others : List Diagnostic, others.Perm diagnostics →
      ((∃ err, applyFixes file others = .error err) ↔
        ∃ err, applyFixes file diagnostics = .error err) ∧
      ∀ pass edits, applyFixes file diagnostics = .ok pass →
        List.Forall₂ (Resolves file) (firstFixes diagnostics) edits →
        ∃ pass', applyFixes file others = .ok pass' ∧ pass'.applied = pass.applied ∧
          pass'.skipped = pass.skipped ∧ (Edit.Agree edits → pass'.output = pass.output)) ∧
    ∀ err, applyFixes file diagnostics = .error err ↔
      ∃ before fix after, firstFixes diagnostics = before ++ fix :: after ∧
        (∀ f ∈ before, ∃ e, Resolves file f e) ∧ (¬∃ e, Resolves file fix e) ∧
        err = ⟨fix.title, file.name, fix.range⟩ := by
  refine ⟨fun others hperm => ⟨?_, ?_⟩, fun err => ?_⟩
  · have hmem : ∀ fix, fix ∈ firstFixes others ↔ fix ∈ firstFixes diagnostics :=
      fun fix => (hperm.filterMap _).mem_iff
    simp only [exists_applyFixes_error_iff, hmem]
  · intro pass edits hpass hedits
    obtain ⟨edits', hedits', hsame⟩ := exists_perm_resolves hperm hedits
    have hpass' : pass = ⟨String.ofList (splice file.chars 0 (takenEdits edits)),
        (takenEdits edits).length, edits.length - (takenEdits edits).length⟩ := by
      have hok := applyFixes_eq_ok_iff.mpr ⟨edits, hedits, rfl⟩
      rw [hpass] at hok
      exact Except.ok.inj hok
    have hlength := takenEdits_length_of_perm hsame
    refine ⟨_, applyFixes_eq_ok_iff.mpr ⟨edits', hedits', rfl⟩, ?_, ?_, fun hagree => ?_⟩
    · rw [hpass', hlength]
    · rw [hpass', hlength, hsame.length_eq]
    · -- the counts are settled by the ranges alone, the output needs the texts as well
      have htaken : takenEdits edits' = takenEdits edits := by
        rw [takenEdits, takenEdits, Edit.sort_eq_of_perm hsame hagree]
      rw [hpass', htaken]
  · rw [applyFixes_eq_error_iff, resolveAll_eq_error_iff]

/-- A finding that wants `text` from one location up to another. -/
def proposal (text : String) (start stop : Text.Location) : Diagnostic where
  ruleId := "T001"
  severity := .warning
  message := "Test"
  file := "a.ts"
  range := ⟨start, stop⟩
  fixes := [⟨"Put " ++ text, text, ⟨start, stop⟩⟩]

def tiedFile : Source.File := Source.File.ofText "a.ts" "abcd é\nxy"

/-- An insertion and a replacement inside another replacement, which is there twice, and one
insertion twice. -/
def tiedFindings : List Diagnostic :=
  [proposal "-" ⟨1, 3⟩ ⟨1, 3⟩, proposal "X" ⟨1, 1⟩ ⟨1, 5⟩, proposal "!" ⟨2, 1⟩ ⟨2, 1⟩,
    proposal "Y" ⟨1, 2⟩ ⟨1, 4⟩, proposal "X" ⟨1, 1⟩ ⟨1, 5⟩, proposal "!" ⟨2, 1⟩ ⟨2, 1⟩]

/-- A fix inside the first one that has no end, and one that has no start. -/
def endlessFindings : List Diagnostic :=
  [proposal "X" ⟨1, 1⟩ ⟨1, 5⟩, proposal "Y" ⟨1, 2⟩ ⟨9, 1⟩, proposal "Z" ⟨0, 1⟩ ⟨1, 2⟩]

theorem tiedFindings_perm :
    tiedFindings.reverse.Perm tiedFindings ∧
    (∃ pass', applyFixes tiedFile tiedFindings.reverse = .ok pass' ∧ pass'.applied = 3 ∧
      pass'.skipped = 3 ∧ pass'.output = "X é\n!!xy") ∧
    (∃ err, applyFixes tiedFile endlessFindings.reverse = .error err) ∧
    ∃ before fix after, firstFixes endlessFindings = before ++ fix :: after ∧
      (∀ f ∈ before, ∃ e, Resolves tiedFile f e) ∧ (¬∃ e, Resolves tiedFile fix e) ∧
      (⟨"Put Y", "a.ts", ⟨1, 2⟩, ⟨9, 1⟩⟩ : InvalidRange) = ⟨fix.title, "a.ts", fix.range⟩ := by
  have hperm : ∀ ds : List Diagnostic, ds.reverse.Perm ds := List.reverse_perm
  refine ⟨hperm tiedFindings, ?_, ?_, ?_⟩
  · have hedits : resolveAll tiedFile (firstFixes tiedFindings) =
        .ok [⟨2, 2, ['-']⟩, ⟨0, 4, ['X']⟩, ⟨8, 8, ['!']⟩, ⟨1, 3, ['Y']⟩, ⟨0, 4, ['X']⟩,
          ⟨8, 8, ['!']⟩] := by
      decide +kernel
    have hpass : applyFixes tiedFile tiedFindings = .ok ⟨"X é\n!!xy", 3, 3⟩ := by decide +kernel
    obtain ⟨pass', hpass', happlied, hskipped, houtput⟩ :=
      ((applyFixes_perm tiedFile tiedFindings).1 _ (hperm _)).2 _ _ hpass
        (resolveAll_eq_ok_iff.mp hedits)
    exact ⟨pass', hpass', happlied, hskipped, houtput (by decide)⟩
  · have hfails : ∃ err, applyFixes tiedFile endlessFindings = .error err :=
      ⟨⟨"Put Y", "a.ts", ⟨1, 2⟩, ⟨9, 1⟩⟩, by decide +kernel⟩
    exact ((applyFixes_perm tiedFile endlessFindings).1 _ (hperm _)).1.mpr hfails
  · exact ((applyFixes_perm tiedFile endlessFindings).2 _).mp (by decide +kernel)

end Lint
end CastLint
