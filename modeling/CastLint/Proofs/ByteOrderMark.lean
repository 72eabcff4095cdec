import CastLint.Proofs.FixRuns
import CastLint.Proofs.MockedCalls

/-! A byte-order mark in front of a text. The mark is not read, so the tree, the mistakes and the
directives are those of the text behind it. It stays in the text all the same, and the spans of the
tree do not count its three bytes: whatever is found through a span is found too far in front. A
text without casts to mock types does not show this, and every fix of such a cast does. -/

namespace CastLint

namespace Syntax

theorem withoutMark_of_head? {cs : List Char} (h : cs.head? ≠ some '\ufeff') :
    withoutMark cs = cs := by
  unfold withoutMark
  split
  · simp at h
  · rfl

theorem Module.ofText_mark (dialect : Dialect) {cs : List Char} (h : cs.head? ≠ some '\ufeff') :
    Module.ofText dialect ('\ufeff' :: cs) = Module.ofText dialect cs := by
  have hmark : withoutMark ('\ufeff' :: cs) = cs := rfl
  rw [Module.ofText, Module.ofText, hmark, withoutMark_of_head? h]

end Syntax

namespace Source

theorem comment?_mark (line : List Char) : comment? ('\ufeff' :: line) = comment? line := by
  rw [comment?]
  simp

theorem directive?_mark (n : Nat) (line : List Char) :
    directive? n ('\ufeff' :: line) = directive? n line := by
  rw [directive?, directive?, comment?_mark]

theorem dropReturn_mark (line : List Char) :
    Text.dropReturn (line ++ ['\ufeff']) = Text.dropReturn line ++ ['\ufeff'] := by
  unfold Text.dropReturn
  cases line with
  | nil => rfl
  | cons c line => by_cases hc : c = '\r' <;> simp [hc]

/-- A mark in front of the line that is being read, which comes in reverse. -/
theorem directivesFrom_mark (n : Nat) (line cs : List Char) :
    directivesFrom n (Text.linesFrom (line ++ ['\ufeff']) cs) =
      directivesFrom n (Text.linesFrom line cs) := by
  induction cs generalizing line with
  | nil =>
    cases line with
    | nil => rfl
    | cons c line =>
      simp only [Text.linesFrom, List.isEmpty_cons, List.cons_append, Bool.false_eq_true, if_false]
      rw [← List.cons_append, List.reverse_append]
      simp only [directivesFrom, List.reverse_singleton, List.singleton_append, directive?_mark]
  | cons c cs ih =>
    by_cases hc : c = '\n'
    · simp only [Text.linesFrom, hc, if_true, dropReturn_mark, List.reverse_append, directivesFrom,
        List.reverse_singleton, List.singleton_append, directive?_mark]
    · simpa only [Text.linesFrom, hc, if_false, List.cons_append] using ih (c :: line)

theorem Directives.ofText_mark (cs : List Char) :
    Directives.ofText ('\ufeff' :: cs) = Directives.ofText cs := by
  have hlines : Text.lines ('\ufeff' :: cs) = Text.linesFrom ([] ++ ['\ufeff']) cs := by
    simp [Text.lines, Text.linesFrom]
  rw [Directives.ofText, Directives.ofText, hlines, directivesFrom_mark]
  rfl

def marked (text : String) : String := "\ufeff" ++ text

@[simp] theorem marked_toList (text : String) : (marked text).toList = '\ufeff' :: text.toList := by
  simp [marked]

theorem File.ofText_marked (name : String) {text : String}
    (h : text.toList.head? ≠ some '\ufeff') :
    File.ofText name (marked text) = { File.ofText name text with text := marked text } := by
  simp only [File.ofText, marked_toList, Syntax.Module.ofText_mark _ h, Directives.ofText_mark]

end Source

namespace Text

theorem splitAtByte_mark (cs : List Char) (n : ℕ) :
    splitAtByte ('\ufeff' :: cs) (n + 3) =
      (splitAtByte cs n).map fun (before, after) => ('\ufeff' :: before, after) := by
  have hsize : Char.utf8Size '\ufeff' = 3 := by decide
  rw [show n + 3 = (n + 2) + 1 from rfl, splitAtByte, hsize, if_pos (by omega)]
  rfl

theorem sliceBytes_mark (cs : List Char) (start stop : ℕ) :
    sliceBytes ('\ufeff' :: cs) (start + 3) (stop + 3) = sliceBytes cs start stop := by
  have hlength : stop + 3 - (start + 3) = stop - start := by omega
  simp only [sliceBytes, splitAtByte_mark, hlength, Nat.add_le_add_iff_right]
  cases splitAtByte cs start with
  | none => rfl
  | some cut => rfl

end Text

namespace Source

theorem File.chars_marked (name text : String) :
    (File.ofText name (marked text)).chars = '\ufeff' :: (File.ofText name text).chars :=
  marked_toList text

theorem File.textOf?_marked (name text : String) (start stop : ℕ) :
    (File.ofText name (marked text)).textOf? ⟨start + 3, stop + 3⟩ =
      (File.ofText name text).textOf? ⟨start, stop⟩ := by
  have hsize : Char.utf8Size '\ufeff' = 3 := by decide
  have hcontains : (File.ofText name (marked text)).contains ⟨start + 3, stop + 3⟩ =
      (File.ofText name text).contains ⟨start, stop⟩ := by
    rw [contains, contains, chars_marked, Text.byteLength_cons, hsize, Bool.eq_iff_iff]
    simp only [Bool.and_eq_true, decide_eq_true_eq]
    omega
  rw [textOf?, textOf?, hcontains, chars_marked, Text.sliceBytes_mark]

end Source

namespace Lint

open Text Syntax

namespace Edit

/-- Two edits of one range. -/
def SameRange (e f : Edit) : Prop := e.start = f.start ∧ e.stop = f.stop

theorem SameRange.precedes_eq {e e' f f' : Edit} (he : SameRange e e') (hf : SameRange f f') :
    e.precedes f = e'.precedes f' := by
  rw [precedes, precedes, he.1, he.2, hf.1, hf.2]

theorem SameRange.insert {e e' : Edit} {es es' : List Edit} (he : SameRange e e')
    (h : List.Forall₂ SameRange es es') :
    List.Forall₂ SameRange (Edit.insert e es) (Edit.insert e' es') := by
  induction h with
  | nil => exact .cons he .nil
  | @cons f f' es es' hf hes ih =>
    rw [Edit.insert, Edit.insert, he.precedes_eq hf]
    split
    · exact .cons he (.cons hf hes)
    · exact .cons hf ih

theorem forall₂_sort {es es' : List Edit} (h : List.Forall₂ SameRange es es') :
    List.Forall₂ SameRange (sort es) (sort es') := by
  induction h with
  | nil => exact .nil
  | cons he _ ih => exact he.insert ih

theorem forall₂_select (cursor : ℕ) {es es' : List Edit} (h : List.Forall₂ SameRange es es') :
    List.Forall₂ SameRange (select cursor es) (select cursor es') := by
  induction h generalizing cursor with
  | nil => exact .nil
  | @cons e e' es es' he _ ih =>
    rw [select, select, he.1, he.2]
    split
    · exact ih cursor
    · exact .cons he (ih e'.stop)

end Edit

theorem forall₂_takenEdits {es es' : List Edit} (h : List.Forall₂ Edit.SameRange es es') :
    List.Forall₂ Edit.SameRange (takenEdits es) (takenEdits es') :=
  Edit.forall₂_select 0 (Edit.forall₂_sort h)

namespace PreferMocked

/-- Findings about one cast, which is well placed in both files. -/
def SameCast (file other : Source.File) (d d' : Diagnostic) : Prop :=
  ∃ cast, WellPlaced file cast ∧ WellPlaced other cast ∧
    finding? file cast = some d ∧ finding? other cast = some d'

theorem forall₂_sameCast {file other : Source.File} {casts : List Cast}
    (h : ∀ cast ∈ casts, WellPlaced file cast ∧ WellPlaced other cast ∧
      (finding? file cast).isSome = (finding? other cast).isSome) :
    List.Forall₂ (SameCast file other) (casts.filterMap (finding? file))
      (casts.filterMap (finding? other)) := by
  induction casts with
  | nil => exact .nil
  | cons cast casts ih =>
    obtain ⟨⟨hfile, hother, hfound⟩, hrest⟩ := List.forall_mem_cons.mp h
    cases hd : finding? file cast with
    | none =>
      have hd' : finding? other cast = none := by simpa [hd] using hfound.symm
      rw [List.filterMap_cons_none hd, List.filterMap_cons_none hd']
      exact ih hrest
    | some d =>
      obtain ⟨d', hd'⟩ : ∃ d', finding? other cast = some d' := by
        simpa [hd, Option.isSome_iff_exists] using hfound.symm
      rw [List.filterMap_cons_some hd, List.filterMap_cons_some hd']
      exact .cons ⟨cast, hfile, hother, hd, hd'⟩ (ih hrest)

def IsCall (e : Edit) : Prop := ∃ rest, e.text = "jest.mocked(".toList ++ rest

theorem WellPlaced.exists_edit {file : Source.File} {cast : Cast} {d : Diagnostic}
    (h : WellPlaced file cast) (hd : finding? file cast = some d) :
    ∃ fix e, d.fixes = [fix] ∧ Resolves file fix e ∧ IsCall e ∧
      e.start = cast.span.start ∧ e.stop = cast.span.stop := by
  obtain ⟨inner, -, hrange, hfixes⟩ := finding?_eq_some hd
  refine ⟨_, _, hfixes, h.resolves hrange inner, ⟨inner.toList ++ ")".toList, ?_⟩, rfl, rfl⟩
  simp [fixOf, helper, String.toList_append]

theorem exists_edits {file other : Source.File} {ds ds' : List Diagnostic}
    (h : List.Forall₂ (SameCast file other) ds ds') :
    ∃ es es', List.Forall₂ (Resolves file) (firstFixes ds) es ∧
      List.Forall₂ (Resolves other) (firstFixes ds') es' ∧ List.Forall₂ Edit.SameRange es es' ∧
      (∀ e ∈ es, IsCall e) ∧ (∀ e ∈ es', IsCall e) ∧ es.length = ds.length := by
  induction h with
  | nil => exact ⟨[], [], .nil, .nil, .nil, by simp, by simp, rfl⟩
  | @cons d d' ds ds' hd _ ih =>
    obtain ⟨cast, hfile, hother, hfinding, hfinding'⟩ := hd
    obtain ⟨fix, e, hfixes, hresolves, hcall, hstart, hstop⟩ := hfile.exists_edit hfinding
    obtain ⟨fix', e', hfixes', hresolves', hcall', hstart', hstop'⟩ := hother.exists_edit hfinding'
    obtain ⟨es, es', hes, hes', hsame, hcalls, hcalls', hlength⟩ := ih
    have hfirst : firstFixes (d :: ds) = fix :: firstFixes ds := by simp [firstFixes, hfixes]
    have hfirst' : firstFixes (d' :: ds') = fix' :: firstFixes ds' := by simp [firstFixes, hfixes']
    refine ⟨e :: es, e' :: es', ?_, ?_, ?_, ?_, ?_, by simp [hlength]⟩
    · rw [hfirst]
      exact .cons hresolves hes
    · rw [hfirst']
      exact .cons hresolves' hes'
    · exact .cons ⟨hstart.trans hstart'.symm, hstop.trans hstop'.symm⟩ hsame
    · exact List.forall_mem_cons.mpr ⟨hcall, hcalls⟩
    · exact List.forall_mem_cons.mpr ⟨hcall', hcalls'⟩

/-- Three bytes in front of the text of a call are never the first three of that text. -/
theorem call_ne_shifted {q : List Char} (hq : byteLength q = 3) (xs ys : List Char) :
    "jest.mocked(".toList ++ xs ≠ q ++ ("jest.mocked(".toList ++ ys) := by
  intro h
  match q, hq with
  | [a], hq =>
    obtain rfl : 'j' = a := by simpa using congrArg List.head? h
    exact absurd hq (by decide)
  | [a, b], hq => simp at h
  | [a, b, c], hq => simp at h
  | a :: b :: c :: d :: q, hq =>
    have ha := a.utf8Size_pos
    have hb := b.utf8Size_pos
    have hc := c.utf8Size_pos
    have hd := d.utf8Size_pos
    simp only [byteLength_cons] at hq
    omega

theorem call_ne_marked {cs : List Char} {start : ℕ} (h : IsBoundary cs start)
    (hmark : IsBoundary ('\ufeff' :: cs) start) (xs ys : List Char) :
    stretch ('\ufeff' :: cs) 0 start ++ ("jest.mocked(".toList ++ xs) ≠
      '\ufeff' :: (stretch cs 0 start ++ ("jest.mocked(".toList ++ ys)) := by
  obtain ⟨front, back, rfl, rfl⟩ := h
  obtain ⟨front', back', hcut, hlength⟩ := hmark
  have hstretch : stretch (front ++ back) 0 (byteLength front) = front := by
    simpa using stretch_append [] front back
  have hstretch' : stretch ('\ufeff' :: (front ++ back)) 0 (byteLength front) = front' := by
    rw [hcut, ← hlength]
    simpa using stretch_append [] front' back'
  rw [hstretch, hstretch']
  cases front' with
  | nil => simp
  | cons c front' =>
    obtain ⟨rfl, htail⟩ := List.cons.inj hcut
    have hsize : Char.utf8Size '\ufeff' = 3 := by decide
    rw [byteLength_cons, hsize] at hlength
    -- what the mark takes is missing at the end of the front part
    have hle : byteLength front' ≤ byteLength front := by omega
    obtain ⟨q, rfl, -⟩ := exists_mid_of_byteLength_le htail.symm hle
    have hq : byteLength q = 3 := by
      rw [byteLength_append] at hlength
      omega
    simpa using call_ne_shifted hq xs ys

theorem output_ne_marked {file other : Source.File} (hchars : other.chars = '\ufeff' :: file.chars)
    {ds ds' : List Diagnostic} (hne : ds ≠ []) (h : List.Forall₂ (SameCast file other) ds ds') :
    ∃ pass pass', applyFixes file ds = .ok pass ∧ applyFixes other ds' = .ok pass' ∧
      pass'.applied = pass.applied ∧ pass'.output ≠ Source.marked pass.output := by
  obtain ⟨es, es', hes, hes', hsame, hcalls, hcalls', hlength⟩ := exists_edits h
  have htaken := forall₂_takenEdits hsame
  refine ⟨_, _, applyFixes_eq_ok_iff.mpr ⟨es, hes, rfl⟩, applyFixes_eq_ok_iff.mpr ⟨es', hes', rfl⟩,
    htaken.length_eq.symm, ?_⟩
  intro heq
  have hsplice : splice other.chars 0 (takenEdits es') =
      '\ufeff' :: splice file.chars 0 (takenEdits es) := by
    simpa using congrArg String.toList heq
  cases hfirst : takenEdits es with
  | nil =>
    rw [takenEdits_eq_nil_iff] at hfirst
    rw [hfirst] at hlength
    exact hne (List.length_eq_zero_iff.mp hlength.symm)
  | cons e rest =>
    rw [hfirst] at htaken hsplice
    obtain ⟨e', rest', he, -, hfirst'⟩ := List.forall₂_cons_left_iff.mp htaken
    rw [hfirst'] at hsplice
    have hmem : e ∈ es := mem_of_mem_takenEdits (by simp [hfirst])
    have hmem' : e' ∈ es' := mem_of_mem_takenEdits (by simp [hfirst'])
    obtain ⟨ys, hys⟩ := hcalls e hmem
    obtain ⟨xs, hxs⟩ := hcalls' e' hmem'
    have hfits := (forall_fits hes e hmem).start
    have hfits' := (forall_fits hes' e' hmem').start
    rw [hchars, ← he.1] at hfits'
    simp only [splice, hchars, hxs, hys, ← he.1, List.append_assoc] at hsplice
    exact call_ne_marked hfits hfits' _ _ hsplice

end PreferMocked

/-- The texts that the rule against casts to mock types wants to put in their place. -/
def replacements (diagnostics : List Diagnostic) : List String :=
  (diagnostics.filter (·.ruleId = PreferMocked.info.id)).flatMap (·.fixes.map (·.newText))

def fixedText? (name text : String) : Option String :=
  ((fixText {} name text).toOption).map (·.output)

/-- A mark in front of a text changes neither what is proposed for the text nor how it is fixed. -/
def MarkTransparent (name text : String) : Prop :=
  replacements (({} : Engine).analyzeText name (Source.marked text)) =
      replacements (({} : Engine).analyzeText name text) ∧
    fixedText? name (Source.marked text) = (fixedText? name text).map Source.marked

instance markTransparentDecidable (name text : String) : Decidable (MarkTransparent name text) :=
  inferInstanceAs (Decidable (_ ∧ _))

theorem replacements_eq_nil {diagnostics : List Diagnostic} (h : ∀ d ∈ diagnostics, d.fixes = []) :
    replacements diagnostics = [] := by
  rw [replacements, List.flatMap_eq_nil_iff]
  intro d hd
  rw [h d (List.mem_of_mem_filter hd), List.map_nil]

theorem markTransparent_of_no_mockCast {name text : String}
    (hhead : text.toList.head? ≠ some '\ufeff')
    (h : ∀ cast ∈ (Source.File.ofText name text).casts, PreferMocked.isMockCast cast = false) :
    MarkTransparent name text := by
  have hplain := PreferMocked.analyze_fixes_eq_nil h
  have hmarked : ∀ d ∈ ({} : Engine).analyze (Source.File.ofText name (Source.marked text)),
      d.fixes = [] := by
    apply PreferMocked.analyze_fixes_eq_nil
    rw [Source.File.ofText_marked name hhead]
    exact h
  refine ⟨?_, ?_⟩
  · rw [Engine.analyzeText, Engine.analyzeText, replacements_eq_nil hplain,
      replacements_eq_nil hmarked]
  · rw [fixedText?, fixedText?, fixText_eq_of_no_fixes hplain, fixText_eq_of_no_fixes hmarked]
    rfl

/-- A mark in front of a text changes nothing about the tree, the mistakes and the directives, and
nothing at all without a cast to a mock type. With one, what is proposed in its place is made of the
text three bytes in front, and no pass over such casts gives what it gives without the mark. -/
theorem mark_shifts_fixes (name text : String) (hhead : text.toList.head? ≠ some '\ufeff') :
    (Source.File.ofText name (Source.marked text)).module = (Source.File.ofText name text).module ∧
    (Source.File.ofText name (Source.marked text)).directives =
      (Source.File.ofText name text).directives ∧
    ((∀ cast ∈ (Source.File.ofText name text).casts, PreferMocked.isMockCast cast = false) →
      MarkTransparent name text) ∧
    (∀ (node : Node) (start stop : ℕ), node.bare.span = ⟨start + 3, stop + 3⟩ →
      PreferMocked.bareText? (Source.File.ofText name (Source.marked text)) node =
        ((Source.File.ofText name text).textOf? ⟨start, stop⟩).filter (· ≠ "")) ∧
    ∀ ds ds', ds ≠ [] → List.Forall₂ (PreferMocked.SameCast (Source.File.ofText name text)
      (Source.File.ofText name (Source.marked text))) ds ds' →
        ∃ pass pass', applyFixes (Source.File.ofText name text) ds = .ok pass ∧
          applyFixes (Source.File.ofText name (Source.marked text)) ds' = .ok pass' ∧
          pass'.applied = pass.applied ∧ pass'.output ≠ Source.marked pass.output := by
  have hfile := Source.File.ofText_marked name hhead
  refine ⟨by rw [hfile], by rw [hfile], markTransparent_of_no_mockCast hhead, ?_, ?_⟩
  · intro node start stop hspan
    rw [PreferMocked.bareText?, hspan, Source.File.textOf?_marked]
  · intro ds ds' hne h
    exact PreferMocked.output_ne_marked (Source.File.chars_marked name text) hne h

def castValue : String := "let m = foo as jest.Mock;"

theorem castValue_shifts :
    castValue.toList.head? ≠ some '\ufeff' ∧
    replacements (({} : Engine).analyzeText "a.ts" (Source.marked castValue)) =
      ["jest.mocked( = )"] ∧
    ∃ pass pass',
      applyFixes (Source.File.ofText "a.ts" castValue)
        (({} : Engine).analyzeText "a.ts" castValue) = .ok pass ∧
      applyFixes (Source.File.ofText "a.ts" (Source.marked castValue))
        (({} : Engine).analyzeText "a.ts" (Source.marked castValue)) = .ok pass' ∧
      pass'.applied = pass.applied ∧ pass'.output ≠ Source.marked pass.output := by
  refine ⟨by decide, by decide +kernel, ?_⟩
  have hplaced : ∀ cast ∈ (Source.File.ofText "a.ts" castValue).casts,
      PreferMocked.WellPlaced (Source.File.ofText "a.ts" castValue) cast ∧
      PreferMocked.WellPlaced (Source.File.ofText "a.ts" (Source.marked castValue)) cast ∧
      (PreferMocked.finding? (Source.File.ofText "a.ts" castValue) cast).isSome =
        (PreferMocked.finding? (Source.File.ofText "a.ts" (Source.marked castValue)) cast).isSome := by
    decide +kernel
  have hplain : ({} : Engine).analyzeText "a.ts" castValue =
      (Source.File.ofText "a.ts" castValue).casts.filterMap
        (PreferMocked.finding? (Source.File.ofText "a.ts" castValue)) := by
    decide +kernel
  have hmarked : ({} : Engine).analyzeText "a.ts" (Source.marked castValue) =
      (Source.File.ofText "a.ts" castValue).casts.filterMap
        (PreferMocked.finding? (Source.File.ofText "a.ts" (Source.marked castValue))) := by
    decide +kernel
  obtain ⟨-, -, -, -, hpasses⟩ := mark_shifts_fixes "a.ts" castValue (by decide)
  rw [hplain, hmarked]
  exact hpasses _ _ (by decide +kernel) (PreferMocked.forall₂_sameCast hplaced)

/-- A cast whose operand the mark moves out of its range. -/
theorem mark_not_transparent :
    "foo as jest.Mock;".toList.head? ≠ some '\ufeff' ∧ ¬MarkTransparent "a.ts" "foo as jest.Mock;" := by
  decide +kernel

end Lint
end CastLint
