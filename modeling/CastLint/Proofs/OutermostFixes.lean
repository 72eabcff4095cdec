import CastLint.Proofs.CastAddresses
import CastLint.Proofs.PassChunks

/-! Fixes whose ranges are nested. A pass takes a fix exactly if its range lies in that of no other
one. So one pass over a file rewrites each cast that is to be fixed and lies inside no other such
cast, and none that does. -/

namespace CastLint
namespace Lint

open Syntax

namespace Edit

def Contains (e f : Edit) : Prop := e.start ≤ f.start ∧ f.stop ≤ e.stop

instance containsDecidable (e f : Edit) : Decidable (e.Contains f) :=
  inferInstanceAs (Decidable (_ ∧ _))

/-- The ranges of two edits differ, and one lies in the other or they are apart. -/
def Nest (e f : Edit) : Prop :=
  (e.start, e.stop) ≠ (f.start, f.stop) ∧
    (e.stop ≤ f.start ∨ f.stop ≤ e.start ∨ e.Contains f ∨ f.Contains e)

instance nestDecidable (e f : Edit) : Decidable (e.Nest f) := inferInstanceAs (Decidable (_ ∧ _))

instance nestSymm : Std.Symm Nest where
  symm e f h := by
    obtain ⟨hne, hcases⟩ := h
    refine ⟨hne.symm, ?_⟩
    tauto

theorem Nest.not_contains {e f : Edit} (h : e.Nest f) (hef : e.Contains f) : ¬f.Contains e := by
  intro hfe
  have hstart : e.start = f.start := Nat.le_antisymm hef.1 hfe.1
  have hstop : e.stop = f.stop := Nat.le_antisymm hfe.2 hef.2
  exact h.1 (Prod.ext hstart hstop)

theorem Nest.contains_of_blocks {e f : Edit} (h : e.Nest f) (hfull : f.start < f.stop)
    (hblocks : e.Blocks f) : e.Contains f := by
  obtain ⟨-, hcases⟩ := h
  obtain ⟨hstart, hstop, htie⟩ := hblocks
  obtain hapart | hapart | hcontains | hcontains := hcases
  · omega
  · omega
  · exact hcontains
  · exact ⟨hstart, htie (Nat.le_antisymm hstart hcontains.1)⟩

/-- An edit whose range lies in that of no other one. -/
def IsMaximal (edits : List Edit) (e : Edit) : Prop :=
  e ∈ edits ∧ ∀ f ∈ edits, f.Contains e → f = e

end Edit

section

variable {edits : List Edit} (hfull : ∀ e ∈ edits, e.start < e.stop)

include hfull

theorem eq_of_contains_of_taken {e f : Edit} (he : e ∈ takenEdits edits)
    (hf : f ∈ takenEdits edits) (h : f.Contains e) : f = e := by
  have hfollow := (takenEdits_follow fun e he => (hfull e he).le).pairwise
  have hboth : (takenEdits edits).Pairwise fun a b => a.stop ≤ b.start ∨ b.stop ≤ a.start :=
    hfollow.imp Or.inl
  have hsymm : Std.Symm fun a b : Edit => a.stop ≤ b.start ∨ b.stop ≤ a.start :=
    ⟨fun _ _ => Or.symm⟩
  by_contra hne
  have hapart := hboth.forall hf he hne
  have hefull := hfull e (mem_of_mem_takenEdits he)
  obtain ⟨hstart, hstop⟩ := h
  omega

theorem mem_takenEdits_iff (hnest : edits.Pairwise Edit.Nest) {e : Edit} :
    e ∈ takenEdits edits ↔ Edit.IsMaximal edits e := by
  obtain ⟨rest, hperm, hrest⟩ := takenEdits_rest edits
  have hcontained : ∀ f ∈ edits, ∃ g ∈ takenEdits edits, g.Contains f := by
    intro f hf
    obtain htaken | hleft := List.mem_append.mp (hperm.mem_iff.mp hf)
    · exact ⟨f, htaken, le_rfl, le_rfl⟩
    · obtain ⟨g, hg, hblocks⟩ := hrest f hleft
      by_cases hgf : g = f
      · exact ⟨g, hg, hgf ▸ ⟨le_rfl, le_rfl⟩⟩
      · exact ⟨g, hg, (hnest.forall (mem_of_mem_takenEdits hg) hf hgf).contains_of_blocks
          (hfull f hf) hblocks⟩
  constructor
  · intro he
    refine ⟨mem_of_mem_takenEdits he, ?_⟩
    intro f hf hcontains
    obtain ⟨g, hg, hgf⟩ := hcontained f hf
    have hge : g.Contains e := ⟨hgf.1.trans hcontains.1, hcontains.2.trans hgf.2⟩
    obtain rfl := eq_of_contains_of_taken hfull he hg hge
    by_contra hne
    exact (hnest.forall hf (mem_of_mem_takenEdits he) hne).not_contains hcontains hgf
  · rintro ⟨he, hmax⟩
    obtain ⟨g, hg, hcontains⟩ := hcontained e he
    rwa [← hmax g (mem_of_mem_takenEdits hg) hcontains]

end

/-- A pass that carries out the edits `taken` and leaves out all others of `edits`. -/
structure Takes (file : Source.File) (pass : FixPass) (edits taken : List Edit) : Prop where
  behind : taken.Pairwise fun a b => a.stop ≤ b.start
  output : Text.encode pass.output.toList = Edit.replaceAll taken (Text.encode file.chars)
  applied : pass.applied = taken.length
  skipped : pass.applied + pass.skipped = edits.length

theorem exists_takes_maximal {file : Source.File} {diagnostics : List Diagnostic}
    {edits : List Edit}
    (hresolves : List.Forall₂ (Resolves file) (firstFixes diagnostics) edits)
    (hfull : ∀ e ∈ edits, e.start < e.stop) (hnest : edits.Pairwise Edit.Nest) :
    ∃ pass taken, applyFixes file diagnostics = .ok pass ∧ Takes file pass edits taken ∧
      ∀ e, e ∈ taken ↔ Edit.IsMaximal edits e := by
  refine ⟨_, takenEdits edits, applyFixes_eq_ok_iff.mpr ⟨edits, hresolves, rfl⟩, ?_,
    fun e => mem_takenEdits_iff hfull hnest⟩
  refine ⟨(takenEdits_follow fun e he => (hfull e he).le).pairwise, ?_, rfl,
    Nat.add_sub_cancel' (takenEdits_length_le edits)⟩
  rw [String.toList_ofList]
  exact encode_splice_takenEdits (forall_fits hresolves)

namespace PreferMocked

def isPending (file : Source.File) (cast : Cast) : Bool :=
  (finding? file cast).any fun d => !({} : Engine).isSuppressed file d

def editOf (file : Source.File) (cast : Cast) : Edit :=
  ⟨cast.span.start, cast.span.stop,
    (helper ++ "(" ++ (bareText? file cast.operand).getD "" ++ ")").toList⟩

theorem resolves_pending {file : Source.File} {all : List Cast}
    (hplaced : ∀ cast ∈ all, WellPlaced file cast) :
    List.Forall₂ (Resolves file)
      (firstFixes ((all.filterMap (finding? file)).filter (!({} : Engine).isSuppressed file ·)))
      ((all.filter (isPending file)).map (editOf file)) := by
  induction all with
  | nil => exact .nil
  | cons cast all ih =>
    have hrest := ih fun other hother => hplaced other (List.mem_cons_of_mem _ hother)
    cases hd : finding? file cast with
    | none =>
      simpa [List.filterMap_cons, hd, isPending, List.filter_cons] using hrest
    | some d =>
      cases hoff : ({} : Engine).isSuppressed file d with
      | true => simpa [List.filterMap_cons, hd, isPending, hoff, List.filter_cons] using hrest
      | false =>
        obtain ⟨inner, hinner, hrange, hfixes⟩ := finding?_eq_some hd
        have hfirst := (hplaced cast (by simp)).resolves hrange inner
        have hedit : editOf file cast =
            ⟨cast.span.start, cast.span.stop, (fixOf inner d.range).newText.toList⟩ := by
          rw [editOf, hinner]
          rfl
        have hpending : isPending file cast = true := by simp [isPending, hd, hoff]
        simp only [firstFixes, List.filterMap_cons, hd, List.filter_cons, hoff, hpending,
          Bool.not_false, if_true, hfixes, List.head?_cons, List.map_cons, hedit]
        exact .cons hfirst hrest

theorem nest_editOf {file : Source.File} {c d : Cast}
    (hd : d.span.start < d.span.stop) (h : d.span.LiesIn c.span ∨ c.span.IsApart d.span) :
    (editOf file c).Nest (editOf file d) := by
  obtain ⟨hstart, hstop, hne⟩ | hapart := h
  · refine ⟨fun hrange => hne ?_, Or.inr (Or.inr (Or.inl ⟨hstart, hstop⟩))⟩
    obtain ⟨hstarts, hstops⟩ := Prod.mk.inj hrange
    exact (congrArg₂ Span.mk hstarts hstops).symm
  · refine ⟨fun hrange => ?_, ?_⟩
    · obtain ⟨hstarts, hstops⟩ := Prod.mk.inj hrange
      simp only [editOf, Span.IsApart] at hstarts hstops hapart
      omega
    · exact hapart.imp_right Or.inl

theorem contains_editOf_iff {file : Source.File} {items : List Node} (hnested : Nested items)
    {a b : List ℕ} {c d : Cast} (hc : castAt? items a = some c) (hd : castAt? items b = some d) :
    (editOf file c).Contains (editOf file d) ↔ a <+: b := by
  constructor
  · rintro ⟨hstart, hstop⟩
    simp only [editOf] at hstart hstop
    by_contra hab
    by_cases hba : b <+: a
    · have hne : b ≠ a := fun hsame => hab (hsame ▸ List.prefix_rfl)
      obtain ⟨hstart', hstop', hspan⟩ := hnested.liesIn hd hc hba hne
      exact hspan (congrArg₂ Span.mk (Nat.le_antisymm hstart hstart')
        (Nat.le_antisymm hstop' hstop))
    · have hfull := hnested.full d (mem_casts_iff.mpr ⟨b, hd⟩)
      have hapart := hnested.isApart hc hd hab hba
      simp only [Span.IsApart] at hapart
      omega
  · intro hbelow
    by_cases hsame : a = b
    · obtain rfl : c = d := Option.some.inj (by rw [← hc, hsame, hd])
      exact ⟨le_rfl, le_rfl⟩
    · obtain ⟨hstart, hstop, -⟩ := hnested.liesIn hc hd hbelow hsame
      exact ⟨hstart, hstop⟩

/-- The cast at an address is to be fixed and lies below no other such cast. -/
def IsOutermost (file : Source.File) (items : List Node) (address : List ℕ) (cast : Cast) : Prop :=
  castAt? items address = some cast ∧ isPending file cast = true ∧
    ∀ above outer, above <+: address → above ≠ address → castAt? items above = some outer →
      isPending file outer = false

theorem isMaximal_iff_isOutermost {file : Source.File} {items : List Node} (hnested : Nested items)
    {e : Edit} :
    Edit.IsMaximal (((casts items).filter (isPending file)).map (editOf file)) e ↔
      ∃ address cast, IsOutermost file items address cast ∧ e = editOf file cast := by
  have hmem : ∀ f, f ∈ ((casts items).filter (isPending file)).map (editOf file) ↔
      ∃ address cast, castAt? items address = some cast ∧ isPending file cast = true ∧
        f = editOf file cast := by
    intro f
    simp only [List.mem_map, List.mem_filter, mem_casts_iff]
    constructor
    · rintro ⟨cast, ⟨⟨address, hcast⟩, hpending⟩, rfl⟩
      exact ⟨address, cast, hcast, hpending, rfl⟩
    · rintro ⟨address, cast, hcast, hpending, rfl⟩
      exact ⟨cast, ⟨⟨address, hcast⟩, hpending⟩, rfl⟩
  simp only [Edit.IsMaximal, hmem]
  constructor
  · rintro ⟨⟨address, cast, hcast, hpending, rfl⟩, hmax⟩
    refine ⟨address, cast, ⟨hcast, hpending, ?_⟩, rfl⟩
    intro above outer hbelow hne houter
    by_contra houterPending
    have hedit := hmax (editOf file outer) ⟨above, outer, houter, by simpa using houterPending, rfl⟩
      ((contains_editOf_iff hnested houter hcast).mpr hbelow)
    have hback : (editOf file cast).Contains (editOf file outer) := hedit ▸ ⟨le_rfl, le_rfl⟩
    have habove := (contains_editOf_iff hnested hcast houter).mp hback
    exact hne (hbelow.eq_of_length_le habove.length_le)
  · rintro ⟨address, cast, ⟨hcast, hpending, houtermost⟩, rfl⟩
    refine ⟨⟨address, cast, hcast, hpending, rfl⟩, ?_⟩
    rintro _ ⟨other, outer, houter, houterPending, rfl⟩ hcontains
    have hbelow := (contains_editOf_iff hnested houter hcast).mp hcontains
    by_cases hsame : other = address
    · rw [hsame, hcast] at houter
      rw [Option.some.inj houter]
    · exact absurd (houtermost other outer hbelow hsame houter) (by simp [houterPending])

end PreferMocked

open PreferMocked in
/-- If the ranges of fixes are nested, then a pass takes exactly those that lie in no other one,
whatever the order of the fixes. In a file whose casts are nested these are the fixes of the
outermost casts among those that are to be fixed. -/
theorem applyFixes_outermost :
    (∀ (file : Source.File) (diagnostics : List Diagnostic) (edits : List Edit),
      List.Forall₂ (Resolves file) (firstFixes diagnostics) edits →
      (∀ e ∈ edits, e.start < e.stop) → edits.Pairwise Edit.Nest →
      ∃ pass taken, applyFixes file diagnostics = .ok pass ∧ Takes file pass edits taken ∧
        ∀ e, e ∈ taken ↔ Edit.IsMaximal edits e) ∧
    ∀ (file : Source.File) (items : List Node), file.language.isTypescript = true →
      file.module.items = some items → (∀ cast ∈ casts items, WellPlaced file cast) →
      Nested items →
      ∃ pass taken, applyFixes file (({} : Engine).analyze file) = .ok pass ∧
        Takes file pass (((casts items).filter (isPending file)).map (editOf file)) taken ∧
        ∀ e, e ∈ taken ↔
          ∃ address cast, IsOutermost file items address cast ∧ e = editOf file cast := by
  refine ⟨fun file diagnostics edits => exists_takes_maximal, ?_⟩
  intro file items hts hitems hplaced hnested
  have hresolves : List.Forall₂ (Resolves file) (firstFixes (({} : Engine).analyze file))
      (((casts items).filter (isPending file)).map (editOf file)) := by
    rw [firstFixes_analyze, check_eq_filterMap hts hitems]
    exact resolves_pending hplaced
  have hfull : ∀ e ∈ ((casts items).filter (isPending file)).map (editOf file),
      e.start < e.stop := by
    rw [List.forall_mem_map]
    intro cast hcast
    exact hnested.full cast (List.mem_of_mem_filter hcast)
  have hnest : (((casts items).filter (isPending file)).map (editOf file)).Pairwise Edit.Nest := by
    rw [List.pairwise_map]
    refine (hnested.pairwise_casts.imp_of_mem fun {c d} _ hd hspans => ?_).filter _
    exact nest_editOf (hnested.full d hd) hspans
  obtain ⟨pass, taken, hpass, htakes, htaken⟩ := exists_takes_maximal hresolves hfull hnest
  exact ⟨pass, taken, hpass, htakes, fun e => (htaken e).trans (isMaximal_iff_isOutermost hnested)⟩

namespace PreferMocked

/-- A file with casts that share their start, a cast between two others, and a cast below one that
is not to a mock type. -/
def nestedCasts : Source.File :=
  Source.File.ofText "a.ts"
    "((a as jest.Mock)(b as jest.Mock) as jest.Mock as jest.Mock); c as jest.Mock as T;"

theorem nestedCasts_outermost :
    (∃ items pass taken, nestedCasts.module.items = some items ∧ Nested items ∧
      applyFixes nestedCasts (({} : Engine).analyze nestedCasts) = .ok pass ∧
      pass = ⟨"(jest.mocked((a as jest.Mock)(b as jest.Mock))); jest.mocked(c) as T;", 2, 3⟩ ∧
      Takes nestedCasts pass
        (((casts items).filter (isPending nestedCasts)).map (editOf nestedCasts)) taken ∧
      ∀ e, e ∈ taken ↔
        ∃ address cast, IsOutermost nestedCasts items address cast ∧
          e = editOf nestedCasts cast) ∧
    ∃ edits pass taken, edits.Pairwise Edit.Nest ∧
      applyFixes nestedCasts (({} : Engine).analyze nestedCasts).reverse = .ok pass ∧
      Takes nestedCasts pass edits taken ∧ ∀ e, e ∈ taken ↔ Edit.IsMaximal edits e := by
  let found := ({} : Engine).analyze nestedCasts
  have hfile : nestedCasts.language.isTypescript = true ∧
      (∃ items ∈ nestedCasts.module.items,
        (∀ cast ∈ casts items, WellPlaced nestedCasts cast) ∧ Nested items) ∧
      (∀ pass ∈ (applyFixes nestedCasts found).toOption,
        pass = ⟨"(jest.mocked((a as jest.Mock)(b as jest.Mock))); jest.mocked(c) as T;", 2, 3⟩) ∧
      ∃ edits ∈ (resolveAll nestedCasts (firstFixes found.reverse)).toOption,
        (∀ e ∈ edits, e.start < e.stop) ∧ edits.Pairwise Edit.Nest := by
    decide +kernel
  obtain ⟨hts, ⟨items, hitems, hplaced, hnested⟩, hresult, hedits⟩ := hfile
  constructor
  · obtain ⟨pass, taken, hpass, hrest⟩ :=
      applyFixes_outermost.2 nestedCasts items hts hitems hplaced hnested
    exact ⟨items, pass, taken, hitems, hnested, hpass, hresult pass (by rw [hpass]; rfl), hrest⟩
  · cases hresolves : resolveAll nestedCasts (firstFixes found.reverse) with
    | error err => simp [hresolves, Except.toOption] at hedits
    | ok edits =>
      obtain ⟨hfull, hnest⟩ : (∀ e ∈ edits, e.start < e.stop) ∧ edits.Pairwise Edit.Nest := by
        simpa [hresolves, Except.toOption] using hedits
      obtain ⟨pass, taken, hpass⟩ := applyFixes_outermost.1 nestedCasts found.reverse edits
        (resolveAll_eq_ok_iff.mp hresolves) hfull hnest
      exact ⟨edits, pass, taken, hnest, hpass⟩

end PreferMocked

end Lint
end CastLint
