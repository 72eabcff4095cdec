import CastLint.Proofs.ByteOrderMark
import CastLint.Proofs.JoinedLines

/-! Passes over scripts. One pass changes every cast of a script, and the next finds nothing to
change, whether or not the lines of its text still stand apart. -/

namespace CastLint

namespace Source

theorem Language.dialect_typescript {language : Language} (h : language.isTypescript = true) :
    language.dialect.typescript = true := by
  cases language <;> simp_all [isTypescript, dialect]

theorem Language.isTypescript_ts : (ofFilename "a.ts").isTypescript = true := by
  decide +kernel

end Source

namespace Script

open Syntax Lint

theorem lineNodes_length (p : Place) (lines : List Line) :
    (lineNodes p lines).length = lines.length := by
  induction lines generalizing p with
  | nil => rfl
  | cons line lines ih => rw [lineNodes, List.length_cons, ih, List.length_cons]

def scriptText (lines : List Line) : String := String.ofList (render (lineGlyphs lines))

@[simp] theorem scriptText_toList (lines : List Line) :
    (scriptText lines).toList = render (lineGlyphs lines) := by
  simp [scriptText]

section

variable {name : String} {lines : List Line}

theorem directives_script (name : String) (lines : List Line) :
    (Source.File.ofText name (scriptText lines)).directives = {} := by
  rw [Source.File.ofText]
  simp only [scriptText_toList]
  exact Source.Directives.ofText_eq_empty (slash_notMem_render (lineGlyphs_isRemark lines))

theorem module_render (name : String) (gs : List Glyph) :
    (Source.File.ofText name (String.ofList (render gs))).module =
      let reading := read (Source.Language.ofFilename name).dialect (render gs)
      ⟨reading.items, reading.issues.map (Issue.problem (render gs))⟩ := by
  have hmark := head?_render_ne gs (c := '\ufeff') (by decide +kernel) (by decide)
  rw [Source.File.ofText]
  simp only [String.toList_ofList, Module.ofText, withoutMark_of_head? hmark]

theorem module_script (name : String) (lines : List Line) :
    (Source.File.ofText name (scriptText lines)).module =
      let cs := render (lineGlyphs lines)
      let reading := read (Source.Language.ofFilename name).dialect cs
      ⟨reading.items, reading.issues.map (Issue.problem cs)⟩ :=
  module_render name (lineGlyphs lines)

theorem analyze_script (name : String) (lines : List Line) :
    ({} : Engine).analyze (Source.File.ofText name (scriptText lines)) =
      Engine.parseFindings (Source.File.ofText name (scriptText lines)) ++
        PreferMocked.check (Source.File.ofText name (scriptText lines)) :=
  PreferMocked.analyze_eq (directives_script name lines)

theorem casts_script (lines : List Line) :
    Replaced (render (lineGlyphs lines)) 0 (lineNodes Place.origin lines) (lineChunks lines) := by
  have hholds : Holds (render (lineGlyphs lines)) Place.origin (lineGlyphs lines) :=
    ⟨[], [], by simp, rfl⟩
  exact lineNodes_replaced lines hholds

variable (hts : (Source.Language.ofFilename name).isTypescript = true)

include hts

theorem items_script (hsep : Separated lines) :
    (Source.File.ofText name (scriptText lines)).module.items =
      some (lineNodes Place.origin lines) := by
  simp only [module_script, read_script (Source.Language.dialect_typescript hts) hsep]

theorem hasProblems_script (hsep : Separated lines) :
    (Source.File.ofText name (scriptText lines)).hasProblems = lines.any Line.misassigns := by
  simp only [Source.File.hasProblems, module_script,
    read_script (Source.Language.dialect_typescript hts) hsep]
  have hissues := lineIssues_eq_nil_iff Place.origin lines
  cases hany : lines.any Line.misassigns with
  | false => simp [hissues.mpr hany]
  | true =>
    have hne : lineIssues Place.origin lines ≠ [] := by simp [hissues, hany]
    simpa using hne

/-- A pass over a script changes every cast of it. -/
theorem fixOnce_script (hsep : Separated lines) :
    fixOnce (Source.File.ofText name) ({} : Engine).analyze (scriptText lines) =
      .ok ⟨scriptText (lines.map Line.fixed), (chunkEdits 0 (lineChunks lines)).length, 0⟩ := by
  have hchars : (Source.File.ofText name (scriptText lines)).chars =
      (lineChunks lines).flatMap Chunk.old := by
    rw [lineChunks_old]
    exact scriptText_toList lines
  have hlanguage : (Source.File.ofText name (scriptText lines)).language.isTypescript = true := hts
  have hpass := PreferMocked.applyFixes_chunks hlanguage (directives_script name lines)
    (items_script hts hsep) hchars (by
      rw [hchars, lineChunks_old]
      exact (casts_script lines).imp fun _ _ h => h.replaces)
  rw [fixOnce, hpass, lineChunks_new]
  rfl

end

/-! ### Scripts without casts -/

/-- The lines that a text without casts is read as. -/
structure ReadsAs (lines read : List Line) : Prop where
  text : scriptText read = scriptText lines
  separated : Separated read
  settled : ∀ line ∈ read, line.isSettled = true
  length : read.length = lines.length ↔ Separated lines
  misassigns : read.any Line.misassigns = lines.any Line.misassigns

section

variable {name : String} {lines : List Line}

theorem exists_readsAs (hsettled : ∀ line ∈ lines, line.isSettled = true) (h : Joinable lines) :
    ∃ read, ReadsAs lines read := by
  cases lines with
  | nil => exact ⟨[], rfl, .nil, hsettled, by simp [Separated], rfl⟩
  | cons line lines =>
    obtain ⟨read, hread⟩ := exists_joined (List.forall_mem_cons.mp hsettled).2 h
    exact ⟨read, by rw [scriptText, hread.glyphs, scriptText], hread.separated,
      hread.isSettled hsettled, hread.length_eq_iff, hread.misassigns⟩

variable (hts : (Source.Language.ofFilename name).isTypescript = true)
  (hsettled : ∀ line ∈ lines, line.isSettled = true)

include hts hsettled

theorem module_of_not_joinable (h : ¬Joinable lines) :
    (Source.File.ofText name (scriptText lines)).module.items = none ∧
      (Source.File.ofText name (scriptText lines)).hasProblems = true := by
  cases lines with
  | nil => exact absurd .nil h
  | cons line lines =>
    obtain ⟨front, head, suffixes, target, right, rest, hglyphs, hsep, -⟩ :=
      refused_of_not_joinable (List.forall_mem_cons.mp hsettled).2 h
    have hrefused : (read (Source.Language.ofFilename name).dialect
        (render (lineGlyphs (line :: lines)))).items = none ∧
        (read (Source.Language.ofFilename name).dialect
          (render (lineGlyphs (line :: lines)))).issues ≠ [] := by
      rw [hglyphs]
      exact read_refused (Source.Language.dialect_typescript hts) hsep rest
    rw [Source.File.hasProblems, module_script]
    exact ⟨hrefused.1, by simpa using hrefused.2⟩

theorem casts_settled : (Source.File.ofText name (scriptText lines)).casts = [] := by
  by_cases h : Joinable lines
  · obtain ⟨read, hread⟩ := exists_readsAs hsettled h
    have hcasts := casts_script read
    rw [Replaced, chunkEdits_eq_nil (lineChunks_isKeep hread.settled)] at hcasts
    rw [← hread.text, Source.File.casts, items_script hts hread.separated]
    exact List.forall₂_nil_right_iff.mp hcasts
  · rw [Source.File.casts, (module_of_not_joinable hts hsettled h).1]
    rfl

/-- Without casts there is a mistake only where something is assigned to a call. -/
theorem hasProblems_settled :
    (Source.File.ofText name (scriptText lines)).hasProblems = false ↔
      Joinable lines ∧ lines.any Line.misassigns = false := by
  by_cases h : Joinable lines
  · obtain ⟨read, hread⟩ := exists_readsAs hsettled h
    rw [← hread.text, hasProblems_script hts hread.separated, hread.misassigns]
    simp [h]
  · simp [h, (module_of_not_joinable hts hsettled h).2]

/-- Without casts there is an item for each line exactly if the lines stand apart. -/
theorem items_settled :
    (Source.File.ofText name (scriptText lines)).module.items.map List.length = some lines.length ↔
      Separated lines := by
  by_cases h : Joinable lines
  · obtain ⟨read, hread⟩ := exists_readsAs hsettled h
    rw [← hread.text, items_script hts hread.separated]
    simp [lineNodes_length, hread.length]
  · have hjoins : ¬Separated lines := fun hsep => h (Separated.joinable hsep)
    simp [hjoins, (module_of_not_joinable hts hsettled h).1]

theorem analyze_settled :
    ({} : Engine).analyze (Source.File.ofText name (scriptText lines)) =
      Engine.parseFindings (Source.File.ofText name (scriptText lines)) := by
  have hcheck : PreferMocked.check (Source.File.ofText name (scriptText lines)) = [] := by
    rw [List.eq_nil_iff_forall_not_mem]
    intro d hd
    obtain ⟨cast, hcast, -⟩ := PreferMocked.mem_check hd
    simp [casts_settled hts hsettled] at hcast
  rw [analyze_script, hcheck, List.append_nil]

theorem no_fixes_settled :
    ∀ d ∈ ({} : Engine).analyze (Source.File.ofText name (scriptText lines)), d.fixes = [] := by
  rw [analyze_settled hts hsettled]
  simp [Engine.parseFindings, Diagnostic.point]

end

/-! ### Fixing a script -/

section

variable {name : String} {lines : List Line}

theorem fixed_isSettled (lines : List Line) :
    ∀ line ∈ lines.map Line.fixed, line.isSettled = true := by
  rw [List.forall_mem_map]
  intro line _
  exact line.fixed_isSettled

theorem scriptText_fixed_of_no_edits (h : chunkEdits 0 (lineChunks lines) = []) :
    scriptText (lines.map Line.fixed) = scriptText lines := by
  rw [scriptText, ← lineChunks_new, flatMap_new_of_chunkEdits h, lineChunks_old, scriptText]

/-- Fixing a script gives the text that one pass makes of it. -/
theorem fixText_script (hts : (Source.Language.ofFilename name).isTypescript = true)
    (hsep : Separated lines) :
    ∃ r, fixText {} name (scriptText lines) = .ok r ∧
      r.output = scriptText (lines.map Line.fixed) ∧
      r.diagnostics =
        ({} : Engine).analyze (Source.File.ofText name (scriptText (lines.map Line.fixed))) := by
  have hfixed := no_fixes_settled hts (fixed_isSettled lines)
  have hpass := fixOnce_script hts hsep
  -- how fixing ends depends on what is found only through the fixes of it
  generalize hfound : ({} : Engine).analyze
    (Source.File.ofText name (scriptText (lines.map Line.fixed))) = found
  by_cases hedits : chunkEdits 0 (lineChunks lines) = []
  · have htext := scriptText_fixed_of_no_edits hedits
    have hrun := fixText_eq_of_no_fixes hfixed
    rw [hfound, htext] at hrun
    exact ⟨_, hrun, htext.symm, rfl⟩
  · have happlied := List.length_pos_of_ne_nil hedits
    have hnext := fixUpTo_eq_of_no_fixes hfixed 8
    rw [hfound] at hnext
    have hrun := fixUpTo_succ_eq_ok_iff.mpr ⟨_, hpass, Or.inr ⟨happlied, _, hnext, rfl⟩⟩
    exact ⟨_, hrun, rfl, rfl⟩

end

/-! ### What a pass does to the shape of lines -/

def Line.isOpenCast : Line → Bool
  | cast _ _ closed => !closed
  | _ => false

def Line.assignsToCast : Line → Bool
  | assign (.cast _ _) _ => true
  | _ => false

theorem Line.fixed_goesOn (line : Line) : line.fixed.goesOn = (line.isOpenCast || line.goesOn) := by
  cases line <;> simp [Line.fixed, Line.goesOn, Line.isOpenCast]

theorem Line.fixed_isAssign (line : Line) : line.fixed.isAssign = line.isAssign := by
  cases line <;> rfl

theorem Line.startsParen_of_fixed {line : Line} (h : line.fixed.startsParen = true) :
    line.startsParen = true := by
  cases line with
  | cast operand type closed =>
    cases operand <;> simp [Line.fixed, Operand.mocked, Line.startsParen] at h
  | value head suffixes closed =>
    cases head with
    | group => rfl
    | mocked => simp [Line.fixed, Head.fixed, Line.startsParen] at h
  | assign => rfl

theorem Line.fixed_misassigns (line : Line) :
    line.fixed.misassigns = (line.assignsToCast || line.misassigns) := by
  cases line with
  | assign target right => cases target <;> rfl
  | _ => rfl

section

variable {lines : List Line} {R S : Line → Line → Prop}

theorem Separated.isChain_iff (hsep : Separated lines)
    (h : ∀ l m, l.joins m = false → (R l m ↔ S l m)) : lines.IsChain R ↔ lines.IsChain S := by
  have hjoins := List.isChain_iff_forall_rel_of_append_cons_cons.mp hsep
  simp only [List.isChain_iff_forall_rel_of_append_cons_cons]
  constructor
  · intro hR l m front back heq
    exact (h l m (hjoins heq)).mp (hR heq)
  · intro hS l m front back heq
    exact (h l m (hjoins heq)).mpr (hS heq)

/-- Behind a pass, a line goes on with an assignment only if it was a cast. -/
theorem Separated.joinable_fixed_iff (hsep : Separated lines) :
    Joinable (lines.map Line.fixed) ↔
      lines.IsChain fun l m => (l.isOpenCast && m.isAssign) = false := by
  rw [Joinable, List.isChain_map]
  apply hsep.isChain_iff
  intro l m hjoins
  have hassign := Line.isAssign_of_not_joins hjoins
  rw [Line.fixed_goesOn, Line.fixed_isAssign, Bool.and_or_distrib_right, hassign, Bool.or_false]

/-- Behind a pass, a line goes on with the next only if it was a cast. -/
theorem Separated.fixed_iff (hsep : Separated lines) :
    Separated (lines.map Line.fixed) ↔
      lines.IsChain fun l m => (l.isOpenCast && m.fixed.startsParen) = false := by
  rw [Separated, List.isChain_map]
  apply hsep.isChain_iff
  intro l m hjoins
  have hgoes : (l.goesOn && m.fixed.startsParen) = false := by
    cases hparen : m.fixed.startsParen with
    | false => exact Bool.and_false _
    | true => rwa [Line.joins, Line.startsParen_of_fixed hparen] at hjoins
  rw [Line.joins, Line.fixed_goesOn, Bool.and_or_distrib_right, hgoes, Bool.or_false]

theorem misassigns_fixed_iff (hplaces : lines.any Line.misassigns = false) :
    (lines.map Line.fixed).any Line.misassigns = false ↔
      ∀ line ∈ lines, line.assignsToCast = false := by
  rw [List.any_eq_false] at hplaces
  simp only [List.any_map, List.any_eq_false, Function.comp_apply, Line.fixed_misassigns,
    Bool.or_eq_true, not_or]
  constructor
  · intro h line hline
    exact Bool.eq_false_of_not_eq_true (h line hline).1
  · intro h line hline
    exact ⟨by simp [h line hline], hplaces line hline⟩

end

end Script

/-- A script in a TypeScript file that is read without a mistake: its lines stand apart, and what it
assigns to are places. -/
structure Script where
  name : String
  typescript : (Source.Language.ofFilename name).isTypescript = true
  lines : List Script.Line
  separated : Script.Separated lines
  places : lines.any Script.Line.misassigns = false

namespace Script

open Syntax

def text (script : Script) : String := scriptText script.lines

theorem hasProblems_eq_false (script : Script) :
    (Source.File.ofText script.name script.text).hasProblems = false := by
  rw [text, hasProblems_script script.typescript script.separated]
  exact script.places

theorem exists_edit (script : Script) {cast : Cast}
    (h : cast ∈ (Source.File.ofText script.name script.text).casts) :
    ∃ e, CastEdit (Source.File.ofText script.name script.text).chars cast e := by
  have hcasts := casts_script script.lines
  rw [Replaced] at hcasts
  rw [Source.File.casts, text, items_script script.typescript script.separated] at h
  simp only [Option.map_some, Option.getD_some] at h
  rw [Source.File.chars, Source.File.ofText, text, scriptText_toList]
  generalize casts (lineNodes Place.origin script.lines) = found at h hcasts
  generalize Lint.chunkEdits 0 (lineChunks script.lines) = edits at hcasts
  induction hcasts with
  | nil => simp at h
  | cons hfirst _ ih =>
    obtain rfl | h := List.mem_cons.mp h
    · exact ⟨_, hfirst⟩
    · exact ih h

end Script
end CastLint
