import CastLint.Lint.Fixing
import CastLint.Proofs.Locations
import Mathlib.Data.List.Forall2
import Mathlib.Data.List.ReduceOption

/-! What one pass of fixes does to a text. The edits it takes come one behind the other, so copying
the text from front to back around them is the same as replacing their ranges one at a time from
the last to the first, where no replacement moves a range that is still to come. -/

namespace CastLint
namespace Lint

open Text

namespace Edit

theorem precedes_iff {a b : Edit} :
    a.precedes b = true ↔ a.start < b.start ∨ a.start = b.start ∧ b.stop ≤ a.stop := by
  simp [precedes]

theorem precedes_trans {a b c : Edit} (hab : a.precedes b = true) (hbc : b.precedes c = true) :
    a.precedes c = true := by
  rw [precedes_iff] at *
  omega

theorem precedes_of_not {a b : Edit} (h : ¬a.precedes b = true) : b.precedes a = true := by
  rw [precedes_iff] at *
  omega

theorem insert_perm (e : Edit) (edits : List Edit) : (insert e edits).Perm (e :: edits) := by
  fun_induction insert e edits with
  | case1 => rfl
  | case2 => rfl
  | case3 f edits _ ih => exact (ih.cons f).trans (List.Perm.swap e f edits)

theorem sort_perm (edits : List Edit) : (sort edits).Perm edits := by
  induction edits with
  | nil => rfl
  | cons e edits ih => exact (insert_perm e (sort edits)).trans (ih.cons e)

/-- Every edit comes in front of those that it precedes. -/
def Sorted (edits : List Edit) : Prop := edits.Pairwise (fun a b => a.precedes b = true)

theorem insert_sorted (e : Edit) {edits : List Edit} (h : Sorted edits) : Sorted (insert e edits) := by
  fun_induction insert e edits with
  | case1 => exact List.pairwise_singleton _ e
  | case2 f edits hef =>
    refine List.pairwise_cons.mpr ⟨?_, h⟩
    intro g hg
    obtain rfl | hg := List.mem_cons.mp hg
    · exact hef
    · exact precedes_trans hef ((List.pairwise_cons.mp h).1 g hg)
  | case3 f edits hef ih =>
    obtain ⟨hf, hedits⟩ := List.pairwise_cons.mp h
    refine List.pairwise_cons.mpr ⟨?_, ih hedits⟩
    intro g hg
    obtain rfl | hg := List.mem_cons.mp ((insert_perm e edits).mem_iff.mp hg)
    · exact precedes_of_not hef
    · exact hf g hg

theorem sort_sorted (edits : List Edit) : Sorted (sort edits) := by
  induction edits with
  | nil => exact List.Pairwise.nil
  | cons e edits ih => exact insert_sorted e ih

structure Fits (text : List Char) (e : Edit) : Prop where
  start : IsBoundary text e.start
  stop : IsBoundary text e.stop
  le : e.start ≤ e.stop

/-- Edits that come one behind the other, none of them in front of `cursor`. -/
def Follow (cursor : ℕ) : List Edit → Prop
  | [] => True
  | e :: edits => cursor ≤ e.start ∧ e.start ≤ e.stop ∧ Follow e.stop edits

theorem Follow.le_start {cursor : ℕ} {edits : List Edit} (h : Follow cursor edits) :
    ∀ e ∈ edits, cursor ≤ e.start := by
  induction edits generalizing cursor with
  | nil => simp
  | cons f edits ih =>
    obtain ⟨hcursor, hle, hrest⟩ := h
    intro e he
    obtain rfl | he := List.mem_cons.mp he
    · exact hcursor
    · exact (hcursor.trans hle).trans (ih hrest e he)

theorem Follow.pairwise {cursor : ℕ} {edits : List Edit} (h : Follow cursor edits) :
    edits.Pairwise (fun a b => a.stop ≤ b.start) := by
  induction edits generalizing cursor with
  | nil => exact List.Pairwise.nil
  | cons e edits ih => exact List.pairwise_cons.mpr ⟨h.2.2.le_start, ih h.2.2⟩

theorem select_sublist (cursor : ℕ) (edits : List Edit) : (select cursor edits).Sublist edits := by
  fun_induction select cursor edits with
  | case1 => exact List.Sublist.refl _
  | case2 cursor e edits _ ih => exact ih.cons e
  | case3 cursor e edits _ ih => exact ih.cons_cons e

theorem select_follow (cursor : ℕ) {edits : List Edit} (h : ∀ e ∈ edits, e.start ≤ e.stop) :
    Follow cursor (select cursor edits) := by
  fun_induction select cursor edits with
  | case1 => trivial
  | case2 cursor e edits _ ih => exact ih fun f hf => h f (by simp [hf])
  | case3 cursor e edits hfree ih =>
    exact ⟨Nat.le_of_not_lt hfree, h e (by simp), ih fun f hf => h f (by simp [hf])⟩

/-- The edit `f` starts inside `e`, and reaches no further if both start together. -/
def Blocks (e f : Edit) : Prop :=
  e.start ≤ f.start ∧ f.start < e.stop ∧ (e.start = f.start → f.stop ≤ e.stop)

/-- Nothing is left out of a selection unless it starts in front of the cursor or inside an edit
that was taken. -/
theorem select_rest (cursor : ℕ) {edits : List Edit} (h : Sorted edits) :
    ∃ rest, edits.Perm (select cursor edits ++ rest) ∧
      ∀ f ∈ rest, f.start < cursor ∨ ∃ e ∈ select cursor edits, e.Blocks f := by
  fun_induction select cursor edits with
  | case1 => exact ⟨[], by simp, by simp⟩
  | case2 cursor e edits hbusy ih =>
    obtain ⟨rest, hperm, hrest⟩ := ih (List.pairwise_cons.mp h).2
    refine ⟨e :: rest, (hperm.cons e).trans List.perm_middle.symm, ?_⟩
    intro f hf
    obtain rfl | hf := List.mem_cons.mp hf
    · exact Or.inl hbusy
    · exact hrest f hf
  | case3 cursor e edits hfree ih =>
    obtain ⟨hfirst, hedits⟩ := List.pairwise_cons.mp h
    obtain ⟨rest, hperm, hrest⟩ := ih hedits
    refine ⟨rest, hperm.cons e, ?_⟩
    intro f hf
    right
    obtain hinside | ⟨g, hg, hblocks⟩ := hrest f hf
    · -- the order of the edits puts the start of `f` behind the start of `e`
      have hprecedes := hfirst f (hperm.mem_iff.mpr (by simp [hf]))
      rw [precedes_iff] at hprecedes
      exact ⟨e, by simp, by omega, hinside, by omega⟩
    · exact ⟨g, by simp [hg], hblocks⟩

def replaceIn (e : Edit) (bytes : List UInt8) : List UInt8 :=
  bytes.take e.start ++ encode e.text ++ bytes.drop e.stop

/-- Edits carried out one at a time, the last one first. -/
def replaceAll (edits : List Edit) (bytes : List UInt8) : List UInt8 := edits.foldr replaceIn bytes

@[simp] theorem replaceAll_nil (bytes : List UInt8) : replaceAll [] bytes = bytes := rfl

@[simp] theorem replaceAll_cons (e : Edit) (edits : List Edit) (bytes : List UInt8) :
    replaceAll (e :: edits) bytes = e.replaceIn (replaceAll edits bytes) := rfl

theorem take_replaceAll {n : ℕ} {edits : List Edit} {bytes : List UInt8} (hn : n ≤ bytes.length)
    (h : ∀ e ∈ edits, n ≤ e.start) : (replaceAll edits bytes).take n = bytes.take n := by
  induction edits with
  | nil => rfl
  | cons e edits ih =>
    have hrest := ih fun f hf => h f (by simp [hf])
    have hstart := h e (by simp)
    have hlength : n ≤ (replaceAll edits bytes).length := by
      have hcount := congrArg List.length hrest
      simp only [List.length_take] at hcount
      omega
    have hfits : n ≤ ((replaceAll edits bytes).take e.start).length := by
      rw [List.length_take]
      omega
    rw [replaceAll_cons, replaceIn, List.append_assoc, List.take_append_of_le_length hfits,
      List.take_take, Nat.min_eq_left hstart, hrest]

end Edit

theorem stretch_append (front mid back : List Char) :
    stretch (front ++ mid ++ back) (byteLength front) (byteLength (front ++ mid)) = mid := by
  have hslice : sliceBytes (front ++ mid ++ back) (byteLength front) (byteLength (front ++ mid)) =
      some mid := sliceBytes_eq_some_iff.mpr ⟨front, back, rfl, rfl, rfl⟩
  rw [stretch, hslice, Option.getD_some]

theorem encode_stretch {text : List Char} {start stop : ℕ} (hstart : IsBoundary text start)
    (hstop : IsBoundary text stop) (hle : start ≤ stop) :
    encode (stretch text start stop) = ((encode text).take stop).drop start := by
  obtain ⟨front, mid, back, rfl, rfl, rfl⟩ := hstart.exists_between hstop hle
  rw [stretch_append, encode_append, ← encode_length (front ++ mid),
    List.take_left, encode_append, ← encode_length front, List.drop_left]

/-- Copying a text around edits that follow one another gives what replacing them from the last to
the first gives behind the cursor. -/
theorem encode_splice {text : List Char} {cursor : ℕ} {edits : List Edit}
    (hcursor : IsBoundary text cursor) (hfits : ∀ e ∈ edits, e.Fits text)
    (hfollow : Edit.Follow cursor edits) :
    encode (splice text cursor edits) = (Edit.replaceAll edits (encode text)).drop cursor := by
  induction edits generalizing cursor with
  | nil =>
    rw [splice, encode_stretch hcursor (isBoundary_byteLength text) hcursor.le_byteLength,
      ← encode_length text, List.take_length, Edit.replaceAll_nil]
  | cons e edits ih =>
    obtain ⟨hle, hrange, hrest⟩ := hfollow
    have hfit := hfits e (by simp)
    have hbound : e.start ≤ (encode text).length := by
      rw [encode_length]
      exact hfit.start.le_byteLength
    have htake : (Edit.replaceAll edits (encode text)).take e.start = (encode text).take e.start :=
      Edit.take_replaceAll hbound fun f hf => hrange.trans (hrest.le_start f hf)
    have hcut : cursor ≤ ((encode text).take e.start).length := by
      rw [List.length_take]
      omega
    have htail := ih hfit.stop (fun f hf => hfits f (by simp [hf])) hrest
    calc encode (splice text cursor (e :: edits))
        = encode (stretch text cursor e.start) ++ encode e.text ++
            encode (splice text e.stop edits) := by simp [splice]
      _ = ((encode text).take e.start).drop cursor ++ encode e.text ++
            (Edit.replaceAll edits (encode text)).drop e.stop := by
          rw [encode_stretch hcursor hfit.start hle, htail]
      _ = (Edit.replaceAll (e :: edits) (encode text)).drop cursor := by
          rw [Edit.replaceAll_cons, Edit.replaceIn, htake, List.append_assoc, List.append_assoc,
            List.drop_append_of_le_length hcut]

/-- An edit that does what a fix says: both ends of the range have offsets, in order. -/
def Resolves (file : Source.File) (fix : Fix) (e : Edit) : Prop :=
  file.offsetOf? fix.range.start = some e.start ∧ file.offsetOf? fix.range.stop = some e.stop ∧
    e.start ≤ e.stop ∧ e.text = fix.newText.toList

theorem resolve_eq_ok_iff {file : Source.File} {fix : Fix} {e : Edit} :
    resolve file fix = .ok e ↔ Resolves file fix e := by
  unfold resolve Resolves
  cases hstart : file.offsetOf? fix.range.start with
  | none => simp
  | some start =>
    cases hstop : file.offsetOf? fix.range.stop with
    | none => simp
    | some stop =>
      obtain ⟨estart, estop, text⟩ := e
      simp only [Option.some.injEq]
      split
      · simp only [Except.ok.injEq, Edit.mk.injEq]
        constructor
        · rintro ⟨rfl, rfl, rfl⟩
          exact ⟨rfl, rfl, ‹_›, rfl⟩
        · rintro ⟨rfl, rfl, -, rfl⟩
          exact ⟨rfl, rfl, rfl⟩
      · simp only [reduceCtorEq, false_iff]
        rintro ⟨rfl, rfl, hle, -⟩
        contradiction

theorem Resolves.fits {file : Source.File} {fix : Fix} {e : Edit} (h : Resolves file fix e) :
    e.Fits file.chars where
  start := (locate_of_offsetOf? h.1).1
  stop := (locate_of_offsetOf? h.2.1).1
  le := h.2.2.1

theorem resolveAll_cons_eq_ok_iff {file : Source.File} {fix : Fix} {fixes : List Fix}
    {edits : List Edit} :
    resolveAll file (fix :: fixes) = .ok edits ↔
      ∃ e es, resolve file fix = .ok e ∧ resolveAll file fixes = .ok es ∧ edits = e :: es := by
  rw [resolveAll]
  cases resolve file fix with
  | error err => simp
  | ok e =>
    cases resolveAll file fixes with
    | error err => simp
    | ok es => simp [eq_comm]

theorem resolveAll_eq_ok_iff {file : Source.File} {fixes : List Fix} {edits : List Edit} :
    resolveAll file fixes = .ok edits ↔ List.Forall₂ (Resolves file) fixes edits := by
  induction fixes generalizing edits with
  | nil => simp [resolveAll, eq_comm]
  | cons fix fixes ih =>
    simp only [resolveAll_cons_eq_ok_iff, resolve_eq_ok_iff, ih, List.forall₂_cons_left_iff]

theorem exists_resolveAll_iff {file : Source.File} {fixes : List Fix} :
    (∃ edits, resolveAll file fixes = .ok edits) ↔ ∀ fix ∈ fixes, ∃ e, Resolves file fix e := by
  induction fixes with
  | nil => simp [resolveAll]
  | cons fix fixes ih =>
    simp only [resolveAll_cons_eq_ok_iff, resolve_eq_ok_iff, List.forall_mem_cons, ← ih]
    constructor
    · rintro ⟨edits, e, es, he, hes, -⟩
      exact ⟨⟨e, he⟩, es, hes⟩
    · rintro ⟨⟨e, he⟩, es, hes⟩
      exact ⟨e :: es, e, es, he, hes, rfl⟩

theorem exists_resolves_iff {file : Source.File} {fix : Fix} :
    (∃ e, Resolves file fix e) ↔
      ∃ start stop, file.offsetOf? fix.range.start = some start ∧
        file.offsetOf? fix.range.stop = some stop ∧ start ≤ stop := by
  constructor
  · rintro ⟨e, hstart, hstop, hle, -⟩
    exact ⟨e.start, e.stop, hstart, hstop, hle⟩
  · rintro ⟨start, stop, hstart, hstop, hle⟩
    exact ⟨⟨start, stop, fix.newText.toList⟩, hstart, hstop, hle, rfl⟩

theorem mem_firstFixes {diagnostics : List Diagnostic} {fix : Fix} :
    fix ∈ firstFixes diagnostics ↔ ∃ d ∈ diagnostics, d.fixes.head? = some fix :=
  List.mem_filterMap

theorem firstFixes_length (diagnostics : List Diagnostic) :
    (firstFixes diagnostics).length = diagnostics.countP Diagnostic.isFixable := by
  induction diagnostics with
  | nil => rfl
  | cons d diagnostics ih =>
    rw [List.countP_cons, ← ih, firstFixes, firstFixes, List.filterMap_cons]
    cases hfixes : d.fixes with
    | nil => simp [Diagnostic.isFixable, hfixes]
    | cons fix fixes => simp [Diagnostic.isFixable, hfixes]

theorem firstFixes_congr {diagnostics others : List Diagnostic}
    (h : others.map (·.fixes.head?) = diagnostics.map (·.fixes.head?)) :
    firstFixes others = firstFixes diagnostics := by
  have hfirst : ∀ ds : List Diagnostic, firstFixes ds = (ds.map (·.fixes.head?)).reduceOption := by
    intro ds
    simp [firstFixes, List.reduceOption, List.filterMap_map]
  rw [hfirst, hfirst, h]

/-- The edits that a pass takes of those that it is given. -/
def takenEdits (edits : List Edit) : List Edit := Edit.select 0 (Edit.sort edits)

theorem takenEdits_rest (edits : List Edit) :
    ∃ rest, edits.Perm (takenEdits edits ++ rest) ∧
      ∀ f ∈ rest, ∃ e ∈ takenEdits edits, e.Blocks f := by
  obtain ⟨rest, hperm, hrest⟩ := Edit.select_rest 0 (Edit.sort_sorted edits)
  refine ⟨rest, (Edit.sort_perm edits).symm.trans hperm, ?_⟩
  intro f hf
  obtain hneg | hblocks := hrest f hf
  · exact absurd hneg (Nat.not_lt_zero _)
  · exact hblocks

example : takenEdits [⟨0, 2, ['y']⟩, ⟨0, 6, ['x']⟩, ⟨6, 6, ['z']⟩] =
    [⟨0, 6, ['x']⟩, ⟨6, 6, ['z']⟩] := by decide

theorem mem_of_mem_takenEdits {edits : List Edit} {e : Edit} (h : e ∈ takenEdits edits) :
    e ∈ edits :=
  (Edit.sort_perm edits).mem_iff.mp ((Edit.select_sublist 0 (Edit.sort edits)).subset h)

theorem takenEdits_follow {edits : List Edit} (h : ∀ e ∈ edits, e.start ≤ e.stop) :
    Edit.Follow 0 (takenEdits edits) :=
  Edit.select_follow 0 fun e he => h e ((Edit.sort_perm edits).mem_iff.mp he)

theorem takenEdits_length_le (edits : List Edit) : (takenEdits edits).length ≤ edits.length := by
  rw [← (Edit.sort_perm edits).length_eq]
  exact (Edit.select_sublist 0 (Edit.sort edits)).length_le

theorem applyFixes_eq_ok_iff {file : Source.File} {diagnostics : List Diagnostic} {pass : FixPass} :
    applyFixes file diagnostics = .ok pass ↔
      ∃ edits, List.Forall₂ (Resolves file) (firstFixes diagnostics) edits ∧
        pass = ⟨String.ofList (splice file.chars 0 (takenEdits edits)), (takenEdits edits).length,
          edits.length - (takenEdits edits).length⟩ := by
  simp only [← resolveAll_eq_ok_iff]
  rw [applyFixes]
  cases resolveAll file (firstFixes diagnostics) with
  | error err => simp
  | ok edits => simp [takenEdits, eq_comm]

theorem exists_applyFixes_iff {file : Source.File} {diagnostics : List Diagnostic} :
    (∃ pass, applyFixes file diagnostics = .ok pass) ↔
      ∀ fix ∈ firstFixes diagnostics, ∃ e, Resolves file fix e := by
  rw [← exists_resolveAll_iff]
  simp only [applyFixes_eq_ok_iff, resolveAll_eq_ok_iff]
  constructor
  · rintro ⟨pass, edits, hedits, -⟩
    exact ⟨edits, hedits⟩
  · rintro ⟨edits, hedits⟩
    exact ⟨_, edits, hedits, rfl⟩

theorem forall_fits {file : Source.File} {fixes : List Fix} {edits : List Edit}
    (h : List.Forall₂ (Resolves file) fixes edits) : ∀ e ∈ edits, e.Fits file.chars := by
  induction h with
  | nil => simp
  | cons hfirst _ ih => exact List.forall_mem_cons.mpr ⟨hfirst.fits, ih⟩

theorem encode_splice_takenEdits {text : List Char} {edits : List Edit}
    (h : ∀ e ∈ edits, e.Fits text) :
    encode (splice text 0 (takenEdits edits)) =
      Edit.replaceAll (takenEdits edits) (encode text) := by
  have hfollow := takenEdits_follow fun e he => (h e he).le
  exact encode_splice (isBoundary_zero text) (fun e he => h e (mem_of_mem_takenEdits he)) hfollow

/-- A pass succeeds exactly if the first fix of each finding has a range. Then the edits that it
takes do not overlap, its output is the text with their ranges replaced from the last to the first,
and every edit that it leaves out starts inside one that it takes. Only first fixes matter. -/
theorem applyFixes_correct (file : Source.File) (diagnostics : List Diagnostic) :
    ((∃ pass, applyFixes file diagnostics = .ok pass) ↔
      ∀ d ∈ diagnostics, ∀ fix, d.fixes.head? = some fix →
        ∃ start stop, file.offsetOf? fix.range.start = some start ∧
          file.offsetOf? fix.range.stop = some stop ∧ start ≤ stop) ∧
    (∀ pass, applyFixes file diagnostics = .ok pass →
      ∃ edits taken rest, List.Forall₂ (Resolves file) (firstFixes diagnostics) edits ∧
        edits.Perm (taken ++ rest) ∧
        (∀ e ∈ edits, e.Fits file.chars) ∧
        taken.Pairwise (fun a b => a.stop ≤ b.start) ∧
        encode pass.output.toList = Edit.replaceAll taken (encode file.chars) ∧
        pass.applied = taken.length ∧
        pass.applied + pass.skipped = diagnostics.countP Diagnostic.isFixable ∧
        ∀ f ∈ rest, ∃ e ∈ taken, e.Blocks f) ∧
    ∀ others : List Diagnostic,
      others.map (·.fixes.head?) = diagnostics.map (·.fixes.head?) →
        applyFixes file others = applyFixes file diagnostics := by
  refine ⟨?_, ?_, ?_⟩
  · rw [exists_applyFixes_iff]
    simp only [exists_resolves_iff, mem_firstFixes]
    constructor
    · intro h d hd fix hfix
      exact h fix ⟨d, hd, hfix⟩
    · rintro h fix ⟨d, hd, hfix⟩
      exact h d hd fix hfix
  · intro pass hpass
    obtain ⟨edits, hedits, rfl⟩ := applyFixes_eq_ok_iff.mp hpass
    obtain ⟨rest, hperm, hrest⟩ := takenEdits_rest edits
    have hfits := forall_fits hedits
    have hfollow := takenEdits_follow fun e he => (hfits e he).le
    refine ⟨edits, takenEdits edits, rest, hedits, hperm, hfits, hfollow.pairwise, ?_, rfl, ?_, hrest⟩
    · rw [String.toList_ofList]
      exact encode_splice_takenEdits hfits
    · rw [← firstFixes_length, hedits.length_eq]
      exact Nat.add_sub_cancel' (takenEdits_length_le edits)
  · intro others hheads
    rw [applyFixes, applyFixes, firstFixes_congr hheads]

end Lint
end CastLint
