import CastLint.Proofs.FixPass
import Mathlib.Tactic.MkIffOfInductiveProp

/-! What the rule against casts to mock types proposes: the bytes of the cast, and no others, become
a call around a stretch of their own text. The range of a fix goes through lines and columns, and
comes back as the span of the cast. -/

namespace CastLint

namespace Syntax

theorem Node.bare_mem_preorder (n : Node) : n.bare ∈ n.preorder := by
  fun_induction Node.bare n with
  | case1 span operand rest ih => simp [Node.preorder, Node.preorderAll, ih]
  | case2 span inner rest ih => simp [Node.preorder, Node.preorderAll, ih]
  | case3 n =>
    cases n with
    | mk kind span parts => simp [Node.preorder]

end Syntax

namespace Source

/-- The casts of a file, and none if its text could not be read. -/
def File.casts (file : File) : List Syntax.Cast := (file.module.items.map Syntax.casts).getD []

end Source

namespace Lint

open Text Syntax

theorem applyFixes_singleton {file : Source.File} {d : Diagnostic} {fix : Fix} {e : Edit}
    {before mid after : List Char} (hfix : d.fixes = [fix]) (he : Resolves file fix e)
    (hchars : file.chars = before ++ mid ++ after) (hstart : byteLength before = e.start)
    (hstop : byteLength (before ++ mid) = e.stop) :
    applyFixes file [d] = .ok ⟨String.ofList (before ++ e.text ++ after), 1, 0⟩ := by
  have hfirst : firstFixes [d] = [fix] := by simp [firstFixes, hfix]
  have htaken : takenEdits [e] = [e] := by simp [takenEdits, Edit.sort, Edit.insert, Edit.select]
  have hfront : stretch file.chars 0 e.start = before := by
    rw [hchars, ← hstart]
    simpa using stretch_append [] before (mid ++ after)
  have hback : stretch file.chars e.stop (byteLength file.chars) = after := by
    rw [hchars, ← hstop]
    simpa using stretch_append (before ++ mid) after []
  rw [applyFixes_eq_ok_iff, hfirst]
  refine ⟨[e], List.Forall₂.cons he .nil, ?_⟩
  rw [htaken, splice, splice, hfront, hback]
  rfl

namespace PreferMocked

/-- A cast that stands where its span says: inside the text, with its ends between characters, and
around everything that is cast. -/
@[mk_iff] structure WellPlaced (file : Source.File) (cast : Cast) : Prop where
  inside : file.contains cast.span = true
  start : IsBoundary file.chars cast.span.start
  stop : IsBoundary file.chars cast.span.stop
  around : ∀ n ∈ cast.operand.preorder,
    cast.span.start ≤ n.span.start ∧ n.span.stop ≤ cast.span.stop

instance wellPlacedDecidable (file : Source.File) (cast : Cast) : Decidable (WellPlaced file cast) :=
  decidable_of_iff _ (wellPlaced_iff file cast).symm

theorem WellPlaced.le {file : Source.File} {cast : Cast} (h : WellPlaced file cast) :
    cast.span.start ≤ cast.span.stop := by
  have hinside := h.inside
  simp only [Source.File.contains, Bool.and_eq_true, decide_eq_true_eq] at hinside
  exact hinside.1

def fixOf (inner : String) (range : Range) : Fix :=
  ⟨"Replace with " ++ helper ++ "()", helper ++ "(" ++ inner ++ ")", range⟩

/-- A finding is about a cast to a mock type whose text and whose range are known. It names the rule,
has the severity of the rule and carries one fix. -/
theorem finding?_inv {file : Source.File} {cast : Cast} {d : Diagnostic}
    (h : finding? file cast = some d) :
    isMockCast cast = true ∧ d.ruleId = "J001" ∧ d.severity = .warning ∧
      ∃ inner, bareText? file cast.operand = some inner ∧
        file.rangeOf? cast.span = some d.range ∧ d.fixes = [fixOf inner d.range] := by
  unfold finding? at h
  cases hmock : isMockCast cast with
  | false => simp [hmock] at h
  | true =>
    cases hinner : bareText? file cast.operand with
    | none => simp [hmock, hinner] at h
    | some inner =>
      cases hrange : file.rangeOf? cast.span with
      | none => simp [hmock, hinner, hrange] at h
      | some range =>
        simp only [hmock, hinner, hrange] at h
        obtain rfl := Option.some.inj h
        exact ⟨rfl, rfl, rfl, inner, rfl, rfl, rfl⟩

theorem finding?_eq_some {file : Source.File} {cast : Cast} {d : Diagnostic}
    (h : finding? file cast = some d) :
    ∃ inner, bareText? file cast.operand = some inner ∧
      file.rangeOf? cast.span = some d.range ∧ d.fixes = [fixOf inner d.range] :=
  (finding?_inv h).2.2.2

theorem start_of_finding? {file : Source.File} {cast : Cast} {d : Diagnostic}
    (h : finding? file cast = some d) : d.range.start = file.locationOf cast.span.start := by
  obtain ⟨inner, -, hrange, -⟩ := finding?_eq_some h
  unfold Source.File.rangeOf? at hrange
  split at hrange
  · rw [← Option.some.inj hrange]
  · simp at hrange

theorem check_eq_filterMap {file : Source.File} {items : List Node}
    (hts : file.language.isTypescript = true) (hitems : file.module.items = some items) :
    check file = (casts items).filterMap (finding? file) := by
  simp [check, hts, hitems]

theorem bareText?_eq_some {file : Source.File} {node : Node} {inner : String}
    (h : bareText? file node = some inner) :
    inner.toList ≠ [] ∧ sliceBytes file.chars node.bare.span.start node.bare.span.stop =
      some inner.toList := by
  obtain ⟨htext, hfull⟩ := Option.filter_eq_some_iff.mp h
  unfold Source.File.textOf? at htext
  split at htext
  · obtain ⟨cs, hslice, rfl⟩ := Option.map_eq_some_iff.mp htext
    refine ⟨?_, by rw [hslice, String.toList_ofList]⟩
    intro hnil
    simp [String.toList_eq_nil_iff.mp hnil] at hfull
  · simp at htext

theorem WellPlaced.resolves {file : Source.File} {cast : Cast} (h : WellPlaced file cast)
    {range : Range} (hrange : file.rangeOf? cast.span = some range) (inner : String) :
    Resolves file (fixOf inner range)
      ⟨cast.span.start, cast.span.stop, (fixOf inner range).newText.toList⟩ := by
  rw [Source.File.rangeOf?, if_pos h.inside] at hrange
  obtain rfl := Option.some.inj hrange
  exact ⟨offsetOf?_locate h.start, offsetOf?_locate h.stop, h.le, rfl⟩

theorem WellPlaced.exists_pieces {file : Source.File} {cast : Cast} (h : WellPlaced file cast)
    {inner : String} (hinner : bareText? file cast.operand = some inner) :
    ∃ before left right after,
      file.chars = before ++ (left ++ inner.toList ++ right) ++ after ∧
      byteLength before = cast.span.start ∧
      byteLength (before ++ (left ++ inner.toList ++ right)) = cast.span.stop := by
  obtain ⟨-, hslice⟩ := bareText?_eq_some hinner
  obtain ⟨front, back, hchars, hfront, hback⟩ := sliceBytes_eq_some_iff.mp hslice
  obtain ⟨before, mid, after, hcast, hbefore, hmid⟩ := h.start.exists_between h.stop h.le
  obtain ⟨hstart, hstop⟩ := h.around _ cast.operand.bare_mem_preorder
  obtain ⟨left, right, rfl⟩ := exists_append_of_between (hcast.symm.trans hchars)
    (by omega) (by omega)
  exact ⟨before, left, right, after, hcast, hbefore, hmid⟩

/-- A finding whose one fix turns the bytes of a span into a call around a part of their text. -/
def Rewrites (file : Source.File) (span : Span) (d : Diagnostic) : Prop :=
  ∃ fix before left inner right after, d.fixes = [fix] ∧ fix.range = d.range ∧
    file.chars = before ++ (left ++ inner ++ right) ++ after ∧
    byteLength before = span.start ∧ byteLength (before ++ (left ++ inner ++ right)) = span.stop ∧
    inner ≠ [] ∧
    resolve file fix = .ok ⟨span.start, span.stop, fix.newText.toList⟩ ∧
    applyFixes file [d] = .ok ⟨String.ofList
      (before ++ "jest.mocked(".toList ++ inner ++ ")".toList ++ after), 1, 0⟩

theorem WellPlaced.rewrites {file : Source.File} {cast : Cast} {d : Diagnostic}
    (h : WellPlaced file cast) (hd : finding? file cast = some d) : Rewrites file cast.span d := by
  obtain ⟨inner, hinner, hrange, hfixes⟩ := finding?_eq_some hd
  obtain ⟨before, left, right, after, hchars, hstart, hstop⟩ := h.exists_pieces hinner
  have hresolves := h.resolves hrange inner
  have hpass := applyFixes_singleton hfixes hresolves hchars hstart hstop
  have htext : (fixOf inner d.range).newText.toList =
      "jest.mocked(".toList ++ inner.toList ++ ")".toList := by
    simp [fixOf, helper, String.toList_append]
  refine ⟨fixOf inner d.range, before, left, inner.toList, right, after, hfixes, rfl, hchars, hstart,
    hstop, (bareText?_eq_some hinner).1, resolve_eq_ok_iff.mpr hresolves, ?_⟩
  rw [hpass]
  simp only [htext, List.append_assoc]

theorem mem_check {file : Source.File} {d : Diagnostic} (h : d ∈ check file) :
    ∃ cast ∈ file.casts, finding? file cast = some d := by
  unfold check at h
  split at h
  · cases hitems : file.module.items with
    | none => simp [hitems] at h
    | some items =>
      simp only [hitems, List.mem_filterMap] at h
      simpa [Source.File.casts, hitems] using h
  · simp at h

theorem analyze_fixes_eq_nil {file : Source.File}
    (h : ∀ cast ∈ file.casts, isMockCast cast = false) :
    ∀ d ∈ ({} : Engine).analyze file, d.fixes = [] := by
  intro d hd
  obtain ⟨hd, -⟩ := List.mem_filter.mp hd
  obtain hparse | hrule := List.mem_append.mp hd
  · obtain ⟨p, -, rfl⟩ := List.mem_map.mp hparse
    rfl
  · have hcheck : d ∈ check file := by
      simpa [allRules, Registry.runAll, Registry.runs, Registry.runRule, Registry.severityOf?,
        rule] using hrule
    obtain ⟨cast, hcast, hfinding⟩ := mem_check hcheck
    simp [finding?, h cast hcast] at hfinding

/-- If the casts of a file are well placed, then the fix of each finding rewrites the cast that the
finding is about, and no fix of a finding is refused. -/
theorem check_rewrites (file : Source.File) (h : ∀ cast ∈ file.casts, WellPlaced file cast) :
    (∀ d ∈ check file, ∃ cast ∈ file.casts, finding? file cast = some d) ∧
    (∀ cast ∈ file.casts, ∀ d, finding? file cast = some d → Rewrites file cast.span d) ∧
    ∀ ds, ds ⊆ check file → ∃ pass, applyFixes file ds = .ok pass := by
  refine ⟨fun d hd => mem_check hd, fun cast hcast d hd => (h cast hcast).rewrites hd, ?_⟩
  intro ds hds
  rw [exists_applyFixes_iff]
  intro fix hfix
  obtain ⟨d, hd, hhead⟩ := mem_firstFixes.mp hfix
  obtain ⟨cast, hcast, hfinding⟩ := mem_check (hds hd)
  obtain ⟨inner, -, hrange, hfixes⟩ := finding?_eq_some hfinding
  obtain rfl : fixOf inner d.range = fix := by simpa [hfixes] using hhead
  exact ⟨_, (h cast hcast).resolves hrange inner⟩

/-- A file with a cast inside a cast, behind a line that is not in one-byte characters. -/
def nestedCastFile : Source.File :=
  Source.File.ofText "a.test.ts" "// é\r\nconst m = (ö as unknown) as jest.Mock;"

theorem nestedCastFile_rewrites :
    (∀ cast ∈ nestedCastFile.casts, WellPlaced nestedCastFile cast) ∧
    (check nestedCastFile).map (·.range) = [⟨⟨2, 11⟩, ⟨2, 38⟩⟩] ∧
    (∀ d ∈ check nestedCastFile, ∃ cast ∈ nestedCastFile.casts,
      finding? nestedCastFile cast = some d) ∧
    (∀ cast ∈ nestedCastFile.casts, ∀ d, finding? nestedCastFile cast = some d →
      Rewrites nestedCastFile cast.span d) ∧
    ∀ ds, ds ⊆ check nestedCastFile → ∃ pass, applyFixes nestedCastFile ds = .ok pass := by
  have hplaced : ∀ cast ∈ nestedCastFile.casts, WellPlaced nestedCastFile cast := by decide +kernel
  exact ⟨hplaced, by decide +kernel, check_rewrites nestedCastFile hplaced⟩

end PreferMocked
end Lint
end CastLint
