import CastLint.Command.Run
import CastLint.Proofs.FixRuns
import CastLint.Proofs.FoundFiles

/-! Checking again what was checked and fixed. The report of a fixed file is made from what fixing
left in memory, and that of a plain check from what is read anew. Both show the same, as long as
fixing does not write to the file that the configuration comes from. -/

namespace CastLint

namespace Lint

theorem Accounts.output_eq {read : String → Source.File} {find : Source.File → List Diagnostic}
    {text : String} {left : ℕ} {r : FixResult} {passes : List FixPass}
    (h : Accounts read find text left r passes) (hzero : r.fixesApplied = 0) : r.output = text := by
  have hpasses : passes = [] := by
    cases passes with
    | nil => rfl
    | cons p passes =>
      have hp := h.changing p (by simp)
      have happlied := h.applied
      rw [List.map_cons, List.sum_cons] at happlied
      omega
  have hrun := h.run
  rw [hpasses] at hrun
  cases hrun
  rfl

end Lint

namespace Files

namespace Refusals

variable {refusals : Refusals} {tree other : Entry} {here : Place} {path : ByteString}

theorem read_congr (refusals : Refusals) (h : other.read here path = tree.read here path) :
    refusals.read other here path = refusals.read tree here path := by
  rw [Refusals.read, Refusals.read, h]

theorem read_eq_ok_iff {text : String} :
    refusals.read tree here path = .ok text ↔
      refusals.reads path = none ∧ tree.read here path = .ok text := by
  unfold Refusals.read
  cases refusals.reads path <;> simp

/-- What writing a text leaves in a file, unless it leaves the file as it is. -/
def stored? (refusals : Refusals) (path : ByteString) (text : String) : Option Content :=
  match refusals.writes path with
  | none => some (.text text)
  | some fault => fault.left? text

theorem stored?_of_none (h : refusals.writes path = none) (text : String) :
    refusals.stored? path text = some (.text text) := by
  rw [stored?, h]

end Refusals

end Files

namespace Config

open Files

theorem findConfig?_congr {tree other : Entry} (h : tree.shape = other.shape) (here : Place)
    (start : ByteString) : findConfig? tree here start = findConfig? other here start := by
  have hholds : tree.holdsFile here = other.holdsFile here :=
    funext fun _ => Entry.holdsFile_congr h
  rw [findConfig?, findConfig?, hholds]

theorem loadNearest_congr {tree other : Entry} {here : Place} {start : ByteString}
    (h : tree.shape = other.shape) (refusals : Refusals)
    (hread : ∀ path, findConfig? tree here start = some path →
      other.read here path = tree.read here path) :
    loadNearest refusals other here start = loadNearest refusals tree here start := by
  rw [loadNearest, loadNearest, ← findConfig?_congr h]
  cases hpath : findConfig? tree here start with
  | none => rfl
  | some path => simp only [load, refusals.read_congr (hread path hpath)]

end Config

namespace Command

open Files Lint

/-! ### Files one by one -/

/-- What checking again says about a file. -/
def FileResult.again : FileResult → FileResult
  | report r => report { r with fixesApplied := 0, exhausted := false }
  | r => r

section

variable {process : ByteString → FileResult} {file : ByteString} {files : List ByteString}

theorem processFiles_cons_of_no_failure (h : (process file).failure? = none) :
    processFiles process (file :: files) = process file :: processFiles process files := by
  simp [processFiles, h]

theorem processFiles_cons_of_failure {failure : Failure}
    (h : (process file).failure? = some failure) :
    processFiles process (file :: files) = [process file] := by
  simp [processFiles, h]

theorem processFiles_of_no_failure (h : ∀ file ∈ files, (process file).failure? = none) :
    processFiles process files = files.map process := by
  induction files with
  | nil => rfl
  | cons file files ih =>
    obtain ⟨hfirst, hrest⟩ := List.forall_mem_cons.mp h
    rw [processFiles_cons_of_no_failure hfirst, ih hrest, List.map_cons]

theorem no_failure_of_processFiles
    (h : (processFiles process files).findSome? FileResult.failure? = none) :
    ∀ file ∈ files, (process file).failure? = none := by
  induction files with
  | nil => simp
  | cons file files ih =>
    cases hfailure : (process file).failure? with
    | none =>
      rw [processFiles_cons_of_no_failure hfailure,
        List.findSome?_cons_of_isNone (by simp [hfailure])] at h
      exact List.forall_mem_cons.mpr ⟨hfailure, ih h⟩
    | some failure => simp [processFiles_cons_of_failure hfailure, hfailure] at h

end

section

variable {engine : Engine} {refusals : Refusals} {tree : Entry} {here : Place} {file : ByteString}
  {files : List ByteString}

theorem fixFile_of_no_failure {text : String}
    (h : (fixFile engine refusals file text).failure? = none) :
    ∃ result, fixText engine file.shown text = .ok result ∧
      (0 < result.fixesApplied → refusals.writes file = none) ∧
      fixFile engine refusals file text = .report (.ofFix file result) := by
  unfold fixFile at h ⊢
  cases hfix : fixText engine file.shown text with
  | error e => simp [hfix, FileResult.failure?] at h
  | ok result =>
    refine ⟨result, rfl, ?_⟩
    by_cases hpos : 0 < result.fixesApplied
    · cases hwrites : refusals.writes file with
      | none => simp [FixResult.changed, hpos]
      | some fault => simp [hfix, FixResult.changed, hpos, hwrites, FileResult.failure?] at h
    · simp [FixResult.changed, hpos]

theorem fixFile_write?_eq_some_iff {text : String} {w : ByteString × Content} :
    (fixFile engine refusals file text).write? = some w ↔
      ∃ result content, fixText engine file.shown text = .ok result ∧ 0 < result.fixesApplied ∧
        refusals.stored? file result.output = some content ∧ w = (file, content) := by
  unfold fixFile
  cases fixText engine file.shown text with
  | error e => simp [FileResult.write?]
  | ok result =>
    simp only [Except.ok.injEq, exists_and_left, exists_eq_left', FixResult.changed,
      decide_eq_true_eq]
    by_cases hpos : 0 < result.fixesApplied
    · cases hwrites : refusals.writes file <;>
        simp [hpos, hwrites, FileResult.write?, FileReport.ofFix, Refusals.stored?, eq_comm]
    · simp [hpos, FileResult.write?, FileReport.ofFix]

/-- The files that fixing writes to, with what it leaves in them. -/
def fixWrites (engine : Engine) (refusals : Refusals) (tree : Entry) (here : Place)
    (files : List ByteString) : List (ByteString × Content) :=
  (files.map (processFile engine refusals tree here true)).filterMap FileResult.write?

theorem mem_fixWrites {w : ByteString × Content} :
    w ∈ fixWrites engine refusals tree here files ↔
      ∃ file ∈ files, ∃ text result content, refusals.read tree here file = .ok text ∧
        fixText engine file.shown text = .ok result ∧ 0 < result.fixesApplied ∧
        refusals.stored? file result.output = some content ∧ w = (file, content) := by
  have hwrite : ∀ file, (processFile engine refusals tree here true file).write? = some w ↔
      ∃ text, refusals.read tree here file = .ok text ∧
        (fixFile engine refusals file text).write? = some w := by
    intro file
    unfold processFile
    cases refusals.read tree here file <;> simp [FileResult.write?]
  simp only [fixWrites, List.mem_filterMap, List.mem_map, exists_exists_and_eq_and, hwrite,
    fixFile_write?_eq_some_iff, exists_and_left]

theorem fixWrites_leadsTo :
    ∀ w ∈ fixWrites engine refusals tree here files, ∃ place, tree.LeadsTo here w.1 place := by
  intro w hw
  obtain ⟨file, -, text, -, -, hread, -, -, -, rfl⟩ := mem_fixWrites.mp hw
  exact Entry.leadsTo_of_read (Refusals.read_eq_ok_iff.mp hread).2

theorem applyWrites_fixWrites_shape :
    (applyWrites here (fixWrites engine refusals tree here files) tree).shape = tree.shape :=
  applyWrites_shape fixWrites_leadsTo

variable {excluded : ByteString → Bool} {path : ByteString} {done : List ByteString}

section

variable (hnamed : tree.isNamed = true)
  (hfound : discover? refusals tree here path excluded = some files) (hdone : done ⊆ files)
  (hfile : file ∈ files)

include hnamed hfound hdone hfile

theorem fixWrites_path {place : Place} (hleads : tree.LeadsTo here file place)
    {w : ByteString × Content} (hw : w ∈ fixWrites engine refusals tree here done)
    (hwleads : tree.LeadsTo here w.1 place) : w.1 = file := by
  obtain ⟨file', hfile', _, _, _, -, -, -, -, rfl⟩ := mem_fixWrites.mp hw
  exact discover?_injective hnamed hfound (hdone hfile') hfile hwleads hleads

theorem read_applyWrites_of_notMem
    (hnot : ∀ content, (file, content) ∉ fixWrites engine refusals tree here done) :
    (applyWrites here (fixWrites engine refusals tree here done) tree).read here file =
      tree.read here file := by
  obtain ⟨base, hall⟩ := exists_leadsTo_of_discover? hnamed hfound
  obtain ⟨below, -, hleads⟩ := hall file hfile
  obtain ⟨c, hget⟩ := hleads.2
  have hsame := get?_applyWrites_of_not_leadsTo fixWrites_leadsTo hget fun w hw hwleads => by
    have hpath := fixWrites_path hnamed hfound hdone hfile hleads hw hwleads
    exact hnot w.2 (by rw [← hpath]; exact hw)
  exact (hleads.congr applyWrites_fixWrites_shape.symm).read_congr hleads (hsame.trans hget.symm)

theorem get?_applyWrites_fixWrites {content : Content} {place : Place}
    (hmem : (file, content) ∈ fixWrites engine refusals tree here done)
    (hleads : tree.LeadsTo here file place) :
    (applyWrites here (fixWrites engine refusals tree here done) tree).get? place =
      some (.file content) :=
  get?_applyWrites fixWrites_leadsTo hmem hleads fun w hw hwleads => by
    have hpath := fixWrites_path hnamed hfound hdone hfile hleads hw hwleads
    -- one path has one text, fixing that has one result, and writing this leaves one content
    obtain ⟨file₁, -, text₁, result₁, content₁, hread₁, hfix₁, -, hstored₁, rfl⟩ :=
      mem_fixWrites.mp hw
    obtain ⟨file₂, -, text₂, result₂, content₂, hread₂, hfix₂, -, hstored₂, heq⟩ :=
      mem_fixWrites.mp hmem
    obtain ⟨rfl, rfl⟩ := Prod.mk.inj heq
    subst hpath
    obtain rfl := Except.ok.inj (hread₁.symm.trans hread₂)
    obtain rfl := Except.ok.inj (hfix₁.symm.trans hfix₂)
    exact Option.some.inj (hstored₁.symm.trans hstored₂)

theorem read_applyWrites_of_fixText {text : String} {result : FixResult} (hmem : file ∈ done)
    (hread : refusals.read tree here file = .ok text)
    (hfix : fixText engine file.shown text = .ok result)
    (hwritten : 0 < result.fixesApplied → refusals.writes file = none) :
    (applyWrites here (fixWrites engine refusals tree here done) tree).read here file =
      .ok result.output := by
  by_cases hpos : 0 < result.fixesApplied
  · have hstored := Refusals.stored?_of_none (hwritten hpos) result.output
    have hmem' : (file, .text result.output) ∈ fixWrites engine refusals tree here done :=
      mem_fixWrites.mpr ⟨file, hmem, text, result, _, hread, hfix, hpos, hstored, rfl⟩
    obtain ⟨place, hleads⟩ := fixWrites_leadsTo _ hmem'
    exact Entry.read_eq_ok_iff.mpr ⟨place, (hleads.congr applyWrites_fixWrites_shape.symm).1,
      get?_applyWrites_fixWrites hnamed hfound hdone hfile hmem' hleads⟩
  · obtain ⟨passes, haccounts⟩ := fixUpTo_accounts hfix
    rw [haccounts.output_eq (by omega), ← (Refusals.read_eq_ok_iff.mp hread).2]
    refine read_applyWrites_of_notMem hnamed hfound hdone hfile fun content hmem' => hpos ?_
    obtain ⟨file', -, text', result', _, hread', hfix', hpos', -, heq⟩ := mem_fixWrites.mp hmem'
    obtain ⟨rfl, -⟩ := Prod.mk.inj heq
    obtain rfl := Except.ok.inj (hread.symm.trans hread')
    rwa [Except.ok.inj (hfix.symm.trans hfix')]

end

/-- The source files below a path in a named tree, each of which is processed without failure. -/
structure Processed (engine : Engine) (refusals : Refusals) (tree : Entry) (here : Place)
    (path : ByteString) (excluded : ByteString → Bool) (files : List ByteString) : Prop where
  named : tree.isNamed = true
  found : discover? refusals tree here path excluded = some files
  done : ∀ file ∈ files, (processFile engine refusals tree here true file).failure? = none

theorem Processed.processFile_again (h : Processed engine refusals tree here path excluded files)
    (hfile : file ∈ files) :
    processFile engine refusals
        (applyWrites here (fixWrites engine refusals tree here files) tree) here false file =
      (processFile engine refusals tree here true file).again := by
  have hdone := h.done file hfile
  cases hread : refusals.read tree here file with
  | error e =>
    have hnot : ∀ content, (file, content) ∉ fixWrites engine refusals tree here files := by
      intro content hmem
      obtain ⟨file', -, text, _, _, hread', -, -, -, heq⟩ := mem_fixWrites.mp hmem
      obtain ⟨rfl, -⟩ := Prod.mk.inj heq
      simp [hread] at hread'
    have hagain := refusals.read_congr
      (read_applyWrites_of_notMem h.named h.found (List.Subset.refl files) hfile hnot)
    simp only [processFile, hagain, hread, FileResult.again]
  | ok text =>
    simp only [processFile, hread, if_true] at hdone
    obtain ⟨result, hfix, hwritten, hreport⟩ := fixFile_of_no_failure hdone
    obtain ⟨passes, haccounts⟩ := fixUpTo_accounts hfix
    have hagain : refusals.read (applyWrites here (fixWrites engine refusals tree here files) tree)
        here file = .ok result.output :=
      Refusals.read_eq_ok_iff.mpr ⟨(Refusals.read_eq_ok_iff.mp hread).1,
        read_applyWrites_of_fixText h.named h.found (List.Subset.refl files) hfile hfile hread hfix
          hwritten⟩
    have hdiagnostics : engine.analyzeText file.shown result.output = result.diagnostics :=
      haccounts.diagnostics.symm
    simp only [processFile, hagain, hread, hreport, hdiagnostics, if_true, Bool.false_eq_true,
      if_false, FileResult.again, FileReport.ofFix]

end

/-! ### Whole runs -/

def Outcome.Aborts (o : Outcome) : Prop :=
  ∃ (f : Failure) (stderr : String) (writes : List (ByteString × Content)),
    o = f.outcome stderr writes

/-- What reports show: the text on the output, and the exit code. -/
def shown (env : Environment) (options : CheckOptions) (registry : Registry)
    (reports : List FileReport) : String × ℕ :=
  (reportText (checkColoured env options) options.format
      { registry := registry
        workingDirectory := (Place.text env.directory).shown
        path := options.path.shown
        totalFiles := reports.length } reports,
    exitCode options.failOnWarnings (reports.flatMap (·.diagnostics)))

theorem report?_again (x : FileResult) :
    x.again.report? = x.report?.map ({ · with fixesApplied := 0, exhausted := false }) := by
  cases x <;> rfl

theorem reports_again (results : List FileResult) :
    (results.map FileResult.again).filterMap FileResult.report? =
      (results.filterMap FileResult.report?).map
        ({ · with fixesApplied := 0, exhausted := false }) := by
  rw [List.filterMap_map, List.map_filterMap]
  exact List.filterMap_congr fun x _ => report?_again x

theorem shown_again (env : Environment) (options : CheckOptions) (registry : Registry)
    (reports : List FileReport) :
    shown env options registry (reports.map ({ · with fixesApplied := 0, exhausted := false })) =
      shown env options registry reports := by
  simp only [shown, reportText, List.flatMap_map, List.map_map, List.isEmpty_map, List.length_map,
    Function.comp_def]

section

variable {env : Environment} {log : Log.Settings} {tree : Entry} {options : CheckOptions}

theorem exists_session_of_not_aborts (h : ¬(check env log tree options).Aborts) :
    ∃ session said files,
      openSession (checkColoured env options) env.refusals tree env.directory options.path =
        (.ok session, said) ∧
      discover? env.refusals tree env.directory options.path
        (session.exclusion.excludes env.directory) = some files ∧
      ∀ file ∈ files,
        (processFile session.engine env.refusals tree env.directory options.fix file).failure? =
          none := by
  unfold check at h
  rcases hsession : openSession (checkColoured env options) env.refusals tree env.directory
    options.path with ⟨failure | session, said⟩
  · simp only [hsession] at h
    exact absurd ⟨_, _, _, rfl⟩ h
  · simp only [hsession] at h
    cases hfiles : discover? env.refusals tree env.directory options.path
        (session.exclusion.excludes env.directory) with
    | none =>
      simp only [hfiles] at h
      exact absurd ⟨_, _, _, rfl⟩ h
    | some files =>
      simp only [hfiles, conclude] at h
      refine ⟨session, said, files, rfl, hfiles, ?_⟩
      cases hfailure : (processFiles (processFile session.engine env.refusals tree env.directory
          options.fix) files).findSome? FileResult.failure? with
      | none => exact no_failure_of_processFiles hfailure
      | some e =>
        simp only [hfailure] at h
        exact absurd ⟨_, _, _, rfl⟩ h

variable (env log options) in
theorem check_of_no_failure {session : Session} {said : String} {files : List ByteString}
    (hsession : openSession (checkColoured env options) env.refusals tree env.directory
      options.path = (.ok session, said))
    (hfiles : discover? env.refusals tree env.directory options.path
      (session.exclusion.excludes env.directory) = some files)
    (hdone : ∀ file ∈ files,
      (processFile session.engine env.refusals tree env.directory options.fix file).failure? =
        none) :
    let results := files.map
      (processFile session.engine env.refusals tree env.directory options.fix)
    ((check env log tree options).stdout, (check env log tree options).code) =
        shown env options session.engine.registry (results.filterMap FileResult.report?) ∧
      (check env log tree options).writes = results.filterMap FileResult.write? := by
  have hnone : (files.map (processFile session.engine env.refusals tree env.directory
      options.fix)).findSome? FileResult.failure? = none := by
    simpa [List.findSome?_eq_none_iff] using hdone
  simp only [check, hsession, hfiles, processFiles_of_no_failure hdone, conclude, hnone]
  exact ⟨rfl, trivial⟩

theorem processFile_plain (engine : Engine) (refusals : Refusals) (here : Place)
    (file : ByteString) :
    (processFile engine refusals tree here false file).failure? = none ∧
      (processFile engine refusals tree here false file).write? = none := by
  unfold processFile
  cases refusals.read tree here file <;> simp [FileResult.failure?, FileResult.write?]

end

/-- The file from which a run takes its configuration is read as before in another tree. -/
def KeepsConfig (env : Environment) (options : CheckOptions) (tree other : Entry) : Prop :=
  ∀ path, Config.findConfig? tree env.directory options.path = some path →
    other.read env.directory path = tree.read env.directory path

/-- Checking again after a run that fixes and is not aborted shows the same and writes nothing. -/
theorem check_again {env : Environment} {log : Log.Settings} {tree : Entry} {options : CheckOptions}
    (time : String) (log' : Log.Settings) (hnamed : tree.isNamed = true) (hfix : options.fix = true)
    (hdone : ¬(check env log tree options).Aborts)
    (hconfig : KeepsConfig env options tree
      (applyWrites env.directory (check env log tree options).writes tree)) :
    let first := check env log tree options
    let again := check { env with time := time } log' (applyWrites env.directory first.writes tree)
      { options with fix := false }
    (again.stdout, again.code) = (first.stdout, first.code) ∧ again.writes = [] := by
  obtain ⟨session, said, files, hsession, hfiles, hfirst⟩ := exists_session_of_not_aborts hdone
  obtain ⟨hshown, hwrites⟩ := check_of_no_failure env log options hsession hfiles hfirst
  rw [hfix] at hshown hwrites hfirst
  have hprocessed : Processed session.engine env.refusals tree env.directory options.path
      (session.exclusion.excludes env.directory) files := ⟨hnamed, hfiles, hfirst⟩
  have hwrites' : (check env log tree options).writes =
      fixWrites session.engine env.refusals tree env.directory files := hwrites
  have hshape : (applyWrites env.directory (check env log tree options).writes tree).shape =
      tree.shape := by
    rw [hwrites']
    exact applyWrites_fixWrites_shape
  have hsession' : openSession (checkColoured env options) env.refusals
      (applyWrites env.directory (check env log tree options).writes tree) env.directory
      options.path = (.ok session, said) := by
    rw [← hsession, openSession, openSession,
      Config.loadNearest_congr hshape.symm env.refusals hconfig]
  have hfiles' := (discover?_congr hshape env.refusals env.directory options.path
    (session.exclusion.excludes env.directory)).trans hfiles
  obtain ⟨hagain, hnothing⟩ := check_of_no_failure { env with time := time } log'
    { options with fix := false } hsession' hfiles'
    fun file _ => (processFile_plain session.engine env.refusals env.directory file).1
  have hresults : files.map (processFile session.engine env.refusals
      (applyWrites env.directory (check env log tree options).writes tree) env.directory false) =
      (files.map (processFile session.engine env.refusals tree env.directory true)).map
        FileResult.again := by
    rw [List.map_map]
    refine List.map_congr_left fun file hfile => ?_
    rw [hwrites']
    exact hprocessed.processFile_again hfile
  refine ⟨?_, ?_⟩
  · simp only [hresults, reports_again] at hagain
    rw [hshown, hagain]
    exact shown_again env options session.engine.registry _
  · rw [hnothing, List.filterMap_map, List.filterMap_eq_nil_iff]
    exact fun file _ => (processFile_plain session.engine env.refusals env.directory file).2

theorem not_aborts_check {env : Environment} {tree : Entry} {args : List String}
    {invocation : Invocation} {options : CheckOptions}
    (hargs : parseArguments args = .ok { invocation with action := .check options })
    (h : ¬(run env tree args).Aborts) :
    ¬(check env (logSettings env { invocation with action := .check options }) tree
      options).Aborts := by
  rintro ⟨f, stderr, writes, heq⟩
  refine h ⟨f, logComplaints env ++ stderr, writes, ?_⟩
  simp [run, hargs, heq, Failure.outcome, String.append_assoc]

/-- A run over what another run left shows the same as that run, unless that was aborted, and it
leaves all files as they are. It may come at another time. -/
def ShowsAgain (env : Environment) (tree : Entry) (args args' : List String) : Prop :=
  ¬(run env tree args).Aborts → ∀ time,
    let first := run env tree args
    let left := applyWrites env.directory first.writes tree
    let again := run { env with time := time } left args'
    again.stdout = first.stdout ∧ again.code = first.code ∧
      applyWrites env.directory again.writes left = left

/-- Checking again what was checked and fixed shows the same, if fixing left the configuration as it
is. -/
theorem run_showsAgain (env : Environment) (tree : Entry) (args args' : List String)
    (invocation : Invocation) (options : CheckOptions)
    (hargs : parseArguments args =
      .ok { invocation with action := .check { options with fix := true } })
    (hargs' : parseArguments args' =
      .ok { invocation with action := .check { options with fix := false } })
    (hnamed : tree.isNamed = true)
    (hconfig : KeepsConfig env options tree
      (applyWrites env.directory (run env tree args).writes tree)) :
    ShowsAgain env tree args args' := by
  intro hdone time
  have hcheck := not_aborts_check hargs hdone
  simp only [run, hargs] at hconfig
  simp only [run, hargs, hargs']
  obtain ⟨hshown, hwrites⟩ := check_again time (logSettings { env with time := time }
    { invocation with action := .check { options with fix := false } }) hnamed rfl hcheck hconfig
  obtain ⟨hstdout, hcode⟩ := Prod.mk.inj hshown
  refine ⟨hstdout, hcode, ?_⟩
  rw [hwrites]
  rfl

/-- A directory in which the configuration leaves a file out and another file takes two passes. -/
def mixedTree : Entry :=
  .directory [
    ("mocklint.toml", .file (.text "exclude = [\"b.ts\"]")),
    ("a.ts", .file (.text "f(a as jest.Mock) as jest.Mock;")),
    ("b.ts", .file (.text "b as jest.Mock;"))]

def rootEnvironment : Environment := { directory := [], time := "" }

theorem mixedTree_showsAgain :
    (run rootEnvironment mixedTree ["check", ".", "--fix"]).writes =
      [(ByteString.ofString "./a.ts", Content.text "jest.mocked(f(jest.mocked(a)));")] ∧
    ShowsAgain rootEnvironment mixedTree ["check", ".", "--fix"] ["check", "."] := by
  have hconfig : Config.findConfig? mixedTree [] "." =
      some (ByteString.ofString "/mocklint.toml") := by
    decide +kernel
  refine ⟨by decide +kernel, run_showsAgain rootEnvironment mixedTree _ _
    { action := .check { path := "." } } { path := "." } (by decide +kernel) (by decide +kernel)
    (by decide +kernel) ?_⟩
  intro path hpath
  obtain rfl := Option.some.inj (hconfig.symm.trans hpath)
  decide +kernel

/-- A directory whose configuration is a link to a source file. The text of that file is a script as
well as a document, and the cast in the script is part of a pattern in the document. -/
def linkedTree : Entry :=
  .directory [
    ("mocklint.toml", .link "x.ts"),
    ("x.ts", .file (.text "x = '\\' # '; /*\nexclude = [\"*/y as jest.Mock/*\"]\n# */\n")),
    ("a", .directory [("y as jest.Mock", .directory [("b.ts", .file (.text "z as jest.Mock;"))])])]

theorem linkedTree_not_showsAgain :
    linkedTree.isNamed = true ∧
    ¬ShowsAgain rootEnvironment linkedTree ["check", ".", "--fix", "--format", "text"]
      ["check", ".", "--format", "text"] := by
  refine ⟨by decide +kernel, fun h => ?_⟩
  have hcode : (run rootEnvironment linkedTree ["check", ".", "--fix", "--format", "text"]).code =
      0 := by
    decide +kernel
  have hdone : ¬(run rootEnvironment linkedTree
      ["check", ".", "--fix", "--format", "text"]).Aborts := by
    rintro ⟨f, stderr, writes, heq⟩
    rw [heq] at hcode
    exact absurd hcode (by simp [Failure.outcome])
  have hstdout := (h hdone "").1
  revert hstdout
  decide +kernel

end Command
end CastLint
