import CastLint.Proofs.FixRuns
import CastLint.Proofs.MockedCalls

/-! A pass over a text that is written as a list of chunks, some of which are replaced. The edits of
such a text come in order and do not overlap, so a pass takes all of them and its output is the text
of the new chunks. -/

namespace CastLint

namespace Source

theorem comment?_eq_none {cs : List Char} (h : '/' ∉ cs) : comment? cs = none := by
  fun_induction comment? cs with
  | case1 cs => simp at h
  | case2 c cs _ ih => exact ih fun hmem => h (by simp [hmem])
  | case3 => rfl

theorem dropReturn_subset (line : List Char) : Text.dropReturn line ⊆ line := by
  unfold Text.dropReturn
  split
  · exact List.subset_cons_self _ _
  · exact List.Subset.refl _

theorem mem_of_mem_linesFrom {line cs : List Char} {c : Char} {text : List Char}
    (htext : text ∈ Text.linesFrom line cs) (hc : c ∈ text) : c ∈ line ∨ c ∈ cs := by
  fun_induction Text.linesFrom line cs with
  | case1 line => simp at htext
  | case2 line _ =>
    obtain rfl := List.mem_singleton.mp htext
    exact Or.inl (List.mem_reverse.mp hc)
  | case3 line cs ih =>
    obtain rfl | htext := List.mem_cons.mp htext
    · exact Or.inl (dropReturn_subset line (List.mem_reverse.mp hc))
    · obtain hnil | hcs := ih htext
      · simp at hnil
      · exact Or.inr (List.mem_cons_of_mem _ hcs)
  | case4 line e cs _ ih =>
    obtain hline | hcs := ih htext
    · obtain rfl | hline := List.mem_cons.mp hline
      · exact Or.inr (by simp)
      · exact Or.inl hline
    · exact Or.inr (List.mem_cons_of_mem _ hcs)

theorem directivesFrom_eq_nil (n : Nat) {texts : List (List Char)} (h : ∀ text ∈ texts, '/' ∉ text) :
    directivesFrom n texts = [] := by
  induction texts generalizing n with
  | nil => rfl
  | cons text texts ih =>
    obtain ⟨htext, htexts⟩ := List.forall_mem_cons.mp h
    simp [directivesFrom, directive?, comment?_eq_none htext, ih _ htexts]

theorem Directives.ofText_eq_empty {cs : List Char} (h : '/' ∉ cs) : Directives.ofText cs = {} := by
  have hlines : ∀ text ∈ Text.lines cs, '/' ∉ text := by
    intro text htext hmem
    obtain hnil | hcs := mem_of_mem_linesFrom htext hmem
    · simp at hnil
    · exact h hcs
  rw [Directives.ofText, directivesFrom_eq_nil 1 hlines]
  rfl

end Source

namespace Lint

open Text Syntax

/-! ### Edits in order -/

namespace Edit

theorem insert_eq_cons {e : Edit} {edits : List Edit} (h : ∀ f ∈ edits, e.precedes f = true) :
    insert e edits = e :: edits := by
  cases edits with
  | nil => rfl
  | cons f edits => simp [insert, h f (by simp)]

theorem sort_eq_self {edits : List Edit} (h : Sorted edits) : sort edits = edits := by
  induction edits with
  | nil => rfl
  | cons e edits ih =>
    obtain ⟨hfirst, hedits⟩ := List.pairwise_cons.mp h
    have hrest : edits.foldr insert [] = edits := ih hedits
    rw [sort, List.foldr_cons, hrest, insert_eq_cons hfirst]

theorem select_eq_self {cursor : ℕ} {edits : List Edit} (h : Follow cursor edits) :
    select cursor edits = edits := by
  induction edits generalizing cursor with
  | nil => rfl
  | cons e edits ih => rw [select, if_neg (Nat.not_lt.mpr h.1), ih h.2.2]

end Edit

theorem takenEdits_eq_self {edits : List Edit} (hfollow : Edit.Follow 0 edits)
    (hfull : ∀ e ∈ edits, e.start < e.stop) : takenEdits edits = edits := by
  have hsorted : Edit.Sorted edits := by
    refine hfollow.pairwise.imp_of_mem ?_
    intro a b ha _ hab
    rw [Edit.precedes_iff]
    exact Or.inl ((hfull a ha).trans_le hab)
  rw [takenEdits, Edit.sort_eq_self hsorted, Edit.select_eq_self hfollow]

/-! ### Chunks -/

/-- A stretch of a text, which a pass keeps or changes. -/
inductive Chunk where
  | keep (cs : List Char)
  | change (old new : List Char)

namespace Chunk

def old : Chunk → List Char
  | keep cs => cs
  | change cs _ => cs

def new : Chunk → List Char
  | keep cs => cs
  | change _ cs => cs

@[simp] theorem old_keep (cs : List Char) : (keep cs).old = cs := rfl

@[simp] theorem old_change (cs ds : List Char) : (change cs ds).old = cs := rfl

@[simp] theorem new_keep (cs : List Char) : (keep cs).new = cs := rfl

@[simp] theorem new_change (cs ds : List Char) : (change cs ds).new = ds := rfl

end Chunk

def chunkEdits (offset : ℕ) : List Chunk → List Edit
  | [] => []
  | .keep cs :: chunks => chunkEdits (offset + byteLength cs) chunks
  | .change old new :: chunks =>
    ⟨offset, offset + byteLength old, new⟩ :: chunkEdits (offset + byteLength old) chunks

theorem chunkEdits_append (offset : ℕ) (chunks others : List Chunk) :
    chunkEdits offset (chunks ++ others) = chunkEdits offset chunks ++
      chunkEdits (offset + byteLength (chunks.flatMap Chunk.old)) others := by
  induction chunks generalizing offset with
  | nil => rfl
  | cons chunk chunks ih =>
    cases chunk <;> simp [chunkEdits, ih, Nat.add_assoc]

theorem chunkEdits_follow {cursor offset : ℕ} (h : cursor ≤ offset) (chunks : List Chunk) :
    Edit.Follow cursor (chunkEdits offset chunks) := by
  induction chunks generalizing cursor offset with
  | nil => trivial
  | cons chunk chunks ih =>
    cases chunk with
    | keep cs => exact ih (h.trans (Nat.le_add_right _ _))
    | change old new => exact ⟨h, Nat.le_add_right _ _, ih (Nat.le_refl _)⟩

theorem flatMap_new_of_chunkEdits {offset : ℕ} {chunks : List Chunk}
    (h : chunkEdits offset chunks = []) : chunks.flatMap Chunk.new = chunks.flatMap Chunk.old := by
  induction chunks generalizing offset with
  | nil => rfl
  | cons chunk chunks ih =>
    cases chunk with
    | keep cs => rw [List.flatMap_cons, List.flatMap_cons, ih h, Chunk.new_keep, Chunk.old_keep]
    | change old new => simp [chunkEdits] at h

/-- Copying a text around the edits of its chunks gives the new chunks behind what was kept since
the last edit. -/
theorem splice_chunkEdits (front kept : List Char) (chunks : List Chunk) :
    splice (front ++ kept ++ chunks.flatMap Chunk.old) (byteLength front)
      (chunkEdits (byteLength (front ++ kept)) chunks) = kept ++ chunks.flatMap Chunk.new := by
  induction chunks generalizing front kept with
  | nil =>
    have hkept := stretch_append front kept []
    rw [List.append_nil] at hkept
    simpa [chunkEdits, splice] using hkept
  | cons chunk chunks ih =>
    cases chunk with
    | keep cs =>
      have hrest := ih front (kept ++ cs)
      simp only [← List.append_assoc] at hrest
      simpa [chunkEdits, Nat.add_assoc] using hrest
    | change old new =>
      have hkept := stretch_append front kept (old ++ chunks.flatMap Chunk.old)
      have hrest := ih (front ++ kept ++ old) []
      simp only [List.append_nil, List.nil_append, List.append_assoc] at hkept hrest
      simp only [chunkEdits, splice, List.flatMap_cons, Chunk.old_change, Chunk.new_change,
        List.append_assoc]
      rw [hkept]
      simp only [byteLength_append, ← Nat.add_assoc] at hrest ⊢
      rw [hrest]

theorem splice_chunks (chunks : List Chunk) :
    splice (chunks.flatMap Chunk.old) 0 (chunkEdits 0 chunks) = chunks.flatMap Chunk.new :=
  splice_chunkEdits [] [] chunks

/-! ### Passes over casts in order -/

namespace PreferMocked

/-- An edit that puts a call around the bare operand of a cast in the place of the cast. -/
structure Replaces (cs : List Char) (cast : Cast) (e : Edit) : Prop where
  mock : isMockCast cast = true
  span : cast.span = ⟨e.start, e.stop⟩
  fits : e.Fits cs
  full : e.start < e.stop
  text : ∃ inner, inner ≠ [] ∧
    sliceBytes cs cast.operand.bare.span.start cast.operand.bare.span.stop = some inner ∧
    e.text = "jest.mocked(".toList ++ inner ++ ")".toList

theorem contains_of_sliceBytes {file : Source.File} {span : Span} {inner : List Char}
    (h : sliceBytes file.chars span.start span.stop = some inner) : file.contains span = true := by
  obtain ⟨front, back, hchars, hstart, hstop⟩ := sliceBytes_eq_some_iff.mp h
  simp only [Source.File.contains, hchars, ← hstart, ← hstop, byteLength_append, Bool.and_eq_true,
    decide_eq_true_eq]
  omega

theorem contains_of_fits {file : Source.File} {e : Edit} (h : e.Fits file.chars) :
    file.contains ⟨e.start, e.stop⟩ = true := by
  simp only [Source.File.contains, Bool.and_eq_true, decide_eq_true_eq]
  exact ⟨h.le, h.stop.le_byteLength⟩

theorem Replaces.exists_finding {file : Source.File} {cast : Cast} {e : Edit}
    (h : Replaces file.chars cast e) :
    ∃ d fix, finding? file cast = some d ∧ d.fixes = [fix] ∧ Resolves file fix e ∧
      fix.newText.toList = e.text := by
  obtain ⟨inner, hne, hslice, htext⟩ := h.text
  have hinner : bareText? file cast.operand = some (String.ofList inner) := by
    rw [bareText?, Source.File.textOf?, if_pos (contains_of_sliceBytes hslice), hslice]
    simp only [Option.map_some, Option.filter_some]
    rw [if_pos]
    simpa [String.ext_iff] using hne
  have hrange : file.rangeOf? cast.span =
      some ⟨file.locationOf e.start, file.locationOf e.stop⟩ := by
    rw [h.span, Source.File.rangeOf?, if_pos (contains_of_fits h.fits)]
  have hnew : (fixOf (String.ofList inner)
      ⟨file.locationOf e.start, file.locationOf e.stop⟩).newText.toList = e.text := by
    rw [htext]
    simp [fixOf, helper, String.toList_append]
  cases hd : finding? file cast with
  | none => simp [finding?, h.mock, hinner, hrange] at hd
  | some d =>
    obtain ⟨inner', hinner', hrange', hfixes⟩ := finding?_eq_some hd
    obtain rfl : String.ofList inner = inner' := by simpa [hinner] using hinner'
    obtain hrange'' := Option.some.inj (hrange.symm.trans hrange')
    rw [← hrange''] at hfixes
    exact ⟨d, _, rfl, hfixes, ⟨offsetOf?_locate h.fits.start, offsetOf?_locate h.fits.stop,
      h.fits.le, hnew.symm⟩, hnew⟩

/-- The names under which directives know the rule. -/
def ruleNames : List String := ["J001", "prefer-mocked"]

/-- Directives switch the rule off on the line where a cast starts. -/
def isSwitchedOff (file : Source.File) (cast : Cast) : Bool :=
  file.directives.isDisabled (file.locationOf cast.span.start).line ruleNames

theorem isSuppressed_finding {file : Source.File} {cast : Cast} {d : Diagnostic}
    (h : finding? file cast = some d) :
    ({} : Engine).isSuppressed file d = isSwitchedOff file cast := by
  obtain ⟨-, hid, -⟩ := finding?_inv h
  have hnames : ({} : Engine).namesOf d = ruleNames := by
    rw [Engine.namesOf, hid]
    rfl
  rw [Engine.isSuppressed, hnames, start_of_finding? h, isSwitchedOff]

/-- The edits are those of the casts that are not switched off. -/
inductive Rewritten (file : Source.File) : List Cast → List Edit → Prop
  | nil : Rewritten file [] []
  | leave {cast casts edits} : isSwitchedOff file cast = true → Rewritten file casts edits →
      Rewritten file (cast :: casts) edits
  | take {cast e casts edits} : isSwitchedOff file cast = false → Replaces file.chars cast e →
      Rewritten file casts edits → Rewritten file (cast :: casts) (e :: edits)

section

variable {file : Source.File} {casts : List Cast} {edits : List Edit}

theorem Rewritten.resolves (h : Rewritten file casts edits) :
    List.Forall₂ (Resolves file)
      (firstFixes ((casts.filterMap (finding? file)).filter (!({} : Engine).isSuppressed file ·)))
      edits := by
  induction h with
  | nil => exact .nil
  | leave hoff _ ih =>
    rename_i cast casts edits _
    cases hd : finding? file cast with
    | none => simpa [List.filterMap_cons, hd] using ih
    | some d => simpa [List.filterMap_cons, hd, isSuppressed_finding hd, hoff] using ih
  | take hon hfirst _ ih =>
    obtain ⟨d, fix, hd, hfixes, hresolves, -⟩ := hfirst.exists_finding
    have hkeep : ({} : Engine).isSuppressed file d = false := by rw [isSuppressed_finding hd, hon]
    simp only [firstFixes, List.filterMap_cons, hd, List.filter_cons, hkeep, Bool.not_false, if_true,
      hfixes, List.head?_cons]
    exact .cons hresolves ih

theorem Rewritten.full (h : Rewritten file casts edits) : ∀ e ∈ edits, e.start < e.stop := by
  induction h with
  | nil => simp
  | leave _ _ ih => exact ih
  | take _ hfirst _ ih => exact List.forall_mem_cons.mpr ⟨hfirst.full, ih⟩

theorem rewritten_of_no_directives (hdirectives : file.directives = {})
    (h : List.Forall₂ (Replaces file.chars) casts edits) : Rewritten file casts edits := by
  have hon : ∀ cast, isSwitchedOff file cast = false := fun cast => by
    rw [isSwitchedOff, hdirectives]
    rfl
  induction h with
  | nil => exact .nil
  | cons hfirst _ ih => exact .take (hon _) hfirst ih

end

theorem runAll_default (file : Source.File) : ({} : Engine).registry.runAll file = check file := by
  simp [allRules, Registry.runAll, Registry.runs, Registry.runRule, Registry.severityOf?, rule]

theorem analyze_eq {file : Source.File} (h : file.directives = {}) :
    ({} : Engine).analyze file = Engine.parseFindings file ++ check file := by
  have hall : ∀ d, ({} : Engine).isSuppressed file d = false := by
    intro d
    rw [Engine.isSuppressed, h]
    rfl
  rw [Engine.analyze, runAll_default, List.filter_eq_self.mpr]
  intro d _
  simp [hall]

theorem firstFixes_analyze (file : Source.File) :
    firstFixes (({} : Engine).analyze file) =
      firstFixes ((check file).filter (!({} : Engine).isSuppressed file ·)) := by
  have hnone : firstFixes ((Engine.parseFindings file).filter
      (!({} : Engine).isSuppressed file ·)) = [] := by
    rw [List.eq_nil_iff_forall_not_mem]
    intro fix hfix
    obtain ⟨d, hd, hhead⟩ := mem_firstFixes.mp hfix
    obtain ⟨p, -, rfl⟩ := List.mem_map.mp (List.mem_of_mem_filter hd)
    simp [Diagnostic.point] at hhead
  rw [firstFixes] at hnone
  rw [Engine.analyze, List.filter_append, runAll_default, firstFixes, List.filterMap_append, hnone]
  rfl

/-- A pass over a file makes the new chunks if those that change its text are the casts that are not
switched off. -/
theorem applyFixes_rewritten {file : Source.File} {items : List Node} {chunks : List Chunk}
    (hts : file.language.isTypescript = true) (hitems : file.module.items = some items)
    (hchars : file.chars = chunks.flatMap Chunk.old)
    (hcasts : Rewritten file (casts items) (chunkEdits 0 chunks)) :
    applyFixes file (({} : Engine).analyze file) =
      .ok ⟨String.ofList (chunks.flatMap Chunk.new), (chunkEdits 0 chunks).length, 0⟩ := by
  have htaken := takenEdits_eq_self (chunkEdits_follow (Nat.le_refl 0) chunks) hcasts.full
  rw [applyFixes_eq_ok_iff, firstFixes_analyze, check_eq_filterMap hts hitems]
  refine ⟨_, hcasts.resolves, ?_⟩
  rw [htaken, hchars, splice_chunks, Nat.sub_self]

/-- A pass over a file whose casts are those of the chunks of its text makes the new chunks. -/
theorem applyFixes_chunks {file : Source.File} {items : List Node} {chunks : List Chunk}
    (hts : file.language.isTypescript = true) (hdirectives : file.directives = {})
    (hitems : file.module.items = some items) (hchars : file.chars = chunks.flatMap Chunk.old)
    (hcasts : List.Forall₂ (Replaces file.chars) (casts items) (chunkEdits 0 chunks)) :
    applyFixes file (({} : Engine).analyze file) =
      .ok ⟨String.ofList (chunks.flatMap Chunk.new), (chunkEdits 0 chunks).length, 0⟩ :=
  applyFixes_rewritten hts hitems hchars (rewritten_of_no_directives hdirectives hcasts)

end PreferMocked

end Lint
end CastLint
