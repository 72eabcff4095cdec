import CastLint.Proofs.RepeatedChecks

/-! What a check does to files. It writes to source files that it has found below its path, and to
them only what fixing makes of what they held; it writes to nothing else, and it writes nothing
unless it is asked to fix. This holds whichever of the files it got to before it ended, and in
whichever order it took them. -/

namespace CastLint

namespace Command

open Files Lint

/-! ### Files in turn -/

section

variable {engine : Engine} {refusals : Refusals} {tree other : Entry} {here place : Place}
  {files done : List ByteString} {excluded : ByteString → Bool} {path file : ByteString}

theorem fixWrites_append (engine : Engine) (refusals : Refusals) (tree : Entry) (here : Place)
    (files files' : List ByteString) :
    fixWrites engine refusals tree here (files ++ files') =
      fixWrites engine refusals tree here files ++ fixWrites engine refusals tree here files' := by
  simp [fixWrites]

theorem fixWrites_congr (engine : Engine) (refusals : Refusals)
    (h : other.read here file = tree.read here file) :
    fixWrites engine refusals other here [file] = fixWrites engine refusals tree here [file] := by
  simp only [fixWrites, List.map_cons, List.map_nil, processFile, refusals.read_congr h]

/-- A check that fixes some of the files on its way. It takes them in any order, but none of them
twice. Each is read from the tree as it is then. An error in fixing it leaves that tree as it is, and
an error in writing to it may leave a part of what was to be written. -/
inductive Fixing (engine : Engine) (refusals : Refusals) (here : Place) (files : List ByteString)
    (tree : Entry) : List ByteString → Entry → Prop
  | start : Fixing engine refusals here files tree [] tree
  | next {taken : List ByteString} {after : Entry} {file : ByteString} :
      Fixing engine refusals here files tree taken after → file ∈ files → file ∉ taken →
      Fixing engine refusals here files tree (file :: taken)
        (applyWrites here (fixWrites engine refusals after here [file]) after)

section

variable (hnamed : tree.isNamed = true)
  (hfound : discover? refusals tree here path excluded = some files)

include hnamed hfound

theorem applyWrites_next (hdone : done ⊆ files) (hfile : file ∈ files) (hnot : file ∉ done) :
    let after := applyWrites here (fixWrites engine refusals tree here done) tree
    applyWrites here (fixWrites engine refusals after here [file]) after =
      applyWrites here (fixWrites engine refusals tree here (done ++ [file])) tree := by
  have hnot' : ∀ content, (file, content) ∉ fixWrites engine refusals tree here done := by
    intro content hmem
    obtain ⟨file', hfile', _, _, _, -, -, -, -, heq⟩ := mem_fixWrites.mp hmem
    obtain ⟨rfl, -⟩ := Prod.mk.inj heq
    exact hnot hfile'
  intro after
  have hread : after.read here file = tree.read here file :=
    read_applyWrites_of_notMem hnamed hfound hdone hfile hnot'
  rw [fixWrites_congr engine refusals hread, fixWrites_append, applyWrites_append]

theorem Fixing.eq_applyWrites {taken : List ByteString} {after : Entry}
    (h : Fixing engine refusals here files tree taken after) :
    taken ⊆ files ∧
      after = applyWrites here (fixWrites engine refusals tree here taken.reverse) tree := by
  induction h with
  | start => exact ⟨List.nil_subset files, rfl⟩
  | next _ hfile hnot ih =>
    obtain ⟨htaken, rfl⟩ := ih
    refine ⟨List.cons_subset.mpr ⟨hfile, htaken⟩, ?_⟩
    rw [List.reverse_cons]
    exact applyWrites_next hnamed hfound (by simpa using htaken) hfile (by simpa using hnot)

theorem Fixing.of_nodup (engine : Engine) (hnodup : done.Nodup) (hdone : done ⊆ files) :
    Fixing engine refusals here files tree done.reverse
      (applyWrites here (fixWrites engine refusals tree here done) tree) := by
  induction done using List.reverseRecOn with
  | nil => exact .start
  | append_singleton done file ih =>
    obtain ⟨hdone', hfile⟩ := List.append_subset.mp hdone
    have hfile' := hfile (List.mem_singleton_self file)
    obtain ⟨hnodup', -, hdisjoint⟩ := List.nodup_append'.mp hnodup
    have hnot : file ∉ done := fun hmem => hdisjoint hmem (List.mem_singleton_self file)
    rw [← applyWrites_next hnamed hfound hdone' hfile' hnot, List.reverse_append]
    exact (ih hnodup' hdone').next hfile' (by simpa using hnot)

theorem get?_applyWrites_fixWrites_or (hdone : done ⊆ files) {c : Content}
    (hget : tree.get? place = some (.file c)) :
    (applyWrites here (fixWrites engine refusals tree here done) tree).get? place =
        some (.file c) ∨
      ∃ file ∈ files, tree.LeadsTo here file place ∧ ∃ text result content, c = .text text ∧
        fixText engine file.shown text = .ok result ∧ 0 < result.fixesApplied ∧
        refusals.stored? file result.output = some content ∧
        (applyWrites here (fixWrites engine refusals tree here done) tree).get? place =
          some (.file content) := by
  by_cases hwritten : ∃ w ∈ fixWrites engine refusals tree here done, tree.LeadsTo here w.1 place
  · obtain ⟨w, hw, hleads⟩ := hwritten
    obtain ⟨file, hfile, text, result, content, hread, hfix, hpos, hstored, rfl⟩ :=
      mem_fixWrites.mp hw
    obtain ⟨place', hresolve, htext⟩ :=
      Entry.read_eq_ok_iff.mp (Refusals.read_eq_ok_iff.mp hread).2
    obtain rfl : place = place' := Except.ok.inj (hleads.1.symm.trans hresolve)
    have hc : c = .text text := by simpa [hget] using htext
    exact Or.inr ⟨file, hdone hfile, hleads, text, result, content, hc, hfix, hpos, hstored,
      get?_applyWrites_fixWrites hnamed hfound hdone (hdone hfile) hw hleads⟩
  · exact Or.inl (get?_applyWrites_of_not_leadsTo fixWrites_leadsTo hget fun w hw hleads =>
      hwritten ⟨w, hw, hleads⟩)

end

end

/-! ### What a check writes -/

theorem exists_processFiles_eq (process : ByteString → FileResult) (files : List ByteString) :
    ∃ done, done <+: files ∧ processFiles process files = done.map process := by
  induction files with
  | nil => exact ⟨[], List.nil_prefix, rfl⟩
  | cons file files ih =>
    obtain ⟨done, hdone, heq⟩ := ih
    cases hfailure : (process file).failure? with
    | none =>
      refine ⟨file :: done, List.cons_prefix_cons.mpr ⟨rfl, hdone⟩, ?_⟩
      rw [processFiles_cons_of_no_failure hfailure, heq, List.map_cons]
    | some failure =>
      exact ⟨[file], by simp, processFiles_cons_of_failure hfailure⟩

theorem conclude_writes (coloured : Report.Coloured) (env : Environment) (log : Log.Settings)
    (options : CheckOptions) (registry : Registry) (stderr : String) (results : List FileResult) :
    (conclude coloured env log options registry stderr results).writes =
      results.filterMap FileResult.write? := by
  unfold conclude
  dsimp only
  split <;> rfl

/-- What a check can leave of a tree whenever it ends: the tree as it is or, if it is asked to fix,
the tree after it has taken some of the source files of its path. -/
inductive MayLeave (env : Environment) (options : CheckOptions) (tree : Entry) : Entry → Prop
  | untouched : MayLeave env options tree tree
  | fixing {session : Session} {said : String} {files taken : List ByteString} {after : Entry}
      (hfix : options.fix = true)
      (hsession : openSession (checkColoured env options) env.refusals tree env.directory
        options.path = (.ok session, said))
      (hfound : discover? env.refusals tree env.directory options.path
        (session.exclusion.excludes env.directory) = some files)
      (htaken : Fixing session.engine env.refusals env.directory files tree taken after) :
      MayLeave env options tree after

/-- A check writes nothing, or it has a session and files and writes what processing these leaves,
whatever is logged. -/
theorem check_writes_cases (env : Environment) (tree : Entry) (options : CheckOptions) :
    (∀ log, (check env log tree options).writes = []) ∨
      ∃ session said files,
        openSession (checkColoured env options) env.refusals tree env.directory options.path =
          (.ok session, said) ∧
        discover? env.refusals tree env.directory options.path
          (session.exclusion.excludes env.directory) = some files ∧
        ∀ log, (check env log tree options).writes =
          (processFiles (processFile session.engine env.refusals tree env.directory options.fix)
            files).filterMap FileResult.write? := by
  rcases hsession : openSession (checkColoured env options) env.refusals tree env.directory
    options.path with ⟨failure | session, said⟩
  · left
    intro log
    simp only [check, hsession, Failure.outcome]
  · cases hfound : discover? env.refusals tree env.directory options.path
        (session.exclusion.excludes env.directory) with
    | none =>
      left
      intro log
      simp only [check, hsession, hfound, Failure.outcome]
    | some files =>
      refine Or.inr ⟨session, said, files, rfl, hfound, fun log => ?_⟩
      simp only [check, hsession, hfound, conclude_writes]

theorem check_mayLeave (env : Environment) (log : Log.Settings) (options : CheckOptions)
    {tree : Entry} (hnamed : tree.isNamed = true) :
    MayLeave env options tree
      (applyWrites env.directory (check env log tree options).writes tree) := by
  obtain hnothing | ⟨session, said, files, hsession, hfound, hwrites⟩ :=
    check_writes_cases env tree options
  · rw [hnothing]
    exact .untouched
  · obtain ⟨done, hdone, heq⟩ := exists_processFiles_eq
      (processFile session.engine env.refusals tree env.directory options.fix) files
    rw [hwrites, heq]
    cases hfix : options.fix with
    | false =>
      have hnothing : (done.map (processFile session.engine env.refusals tree env.directory
          false)).filterMap FileResult.write? = [] := by
        rw [List.filterMap_map, List.filterMap_eq_nil_iff]
        exact fun file _ => (processFile_plain session.engine env.refusals env.directory file).2
      rw [hnothing]
      exact .untouched
    | true =>
      have hnodup := (discover?_nodup hnamed hfound).sublist hdone.sublist
      exact .fixing hfix hsession hfound
        (.of_nodup hnamed hfound session.engine hnodup hdone.subset)

theorem check_writes_congr (env : Environment) (log log' : Log.Settings) (tree : Entry)
    (options : CheckOptions) :
    (check env log tree options).writes = (check env log' tree options).writes := by
  obtain hnothing | ⟨session, said, files, -, -, hwrites⟩ := check_writes_cases env tree options
  · rw [hnothing log, hnothing log']
  · rw [hwrites log, hwrites log']

/-! ### What a check leaves -/

/-- A check finds a source file, which it analyzes with an engine. -/
def Discovers (env : Environment) (options : CheckOptions) (tree : Entry) (engine : Engine)
    (file : ByteString) : Prop :=
  ∃ session said,
    openSession (checkColoured env options) env.refusals tree env.directory options.path =
      (.ok session, said) ∧
    session.engine = engine ∧
    IsSourceOf env.refusals tree env.directory options.path
      (session.exclusion.excludes env.directory) file

/-- A file holds a text that was written to it, or else as many bytes of it as were written before
that failed. -/
def HoldsWritten (refusals : Refusals) (file : ByteString) (text : String) (c : Content) : Prop :=
  refusals.writes file = none ∧ c = .text text ∨
    ∃ fault n, refusals.writes file = some fault ∧ fault.written = some n ∧
      c = .ofBytes ((ByteString.ofString text).take n)

theorem stored?_eq_some_iff {refusals : Refusals} {file : ByteString} {text : String}
    {c : Content} : refusals.stored? file text = some c ↔ HoldsWritten refusals file text c := by
  unfold Refusals.stored? HoldsWritten
  cases refusals.writes file with
  | none => simp [eq_comm]
  | some fault => simp [WriteFault.left?, eq_comm]

structure Spares (env : Environment) (options : CheckOptions) (tree after : Entry) : Prop where
  /-- Without being asked to fix, it leaves everything as it is. -/
  plain : options.fix = false → after = tree
  /-- No file comes or goes, and links and directories stay. -/
  shape : after.shape = tree.shape
  /-- A source file that it finds holds what it held, or else the output of fixing that, as far as
  it could be written. -/
  found : ∀ engine file place text, Discovers env options tree engine file →
    tree.LeadsTo env.directory file place → tree.get? place = some (.file (.text text)) →
    after.get? place = some (.file (.text text)) ∨
      ∃ result c, fixText engine file.shown text = .ok result ∧
        HoldsWritten env.refusals file result.output c ∧ after.get? place = some (.file c)
  /-- A source file that cannot be fixed or to which no fix is applied holds what it held. -/
  unfixed : ∀ engine file place text, Discovers env options tree engine file →
    tree.LeadsTo env.directory file place → tree.get? place = some (.file (.text text)) →
    (∀ result, fixText engine file.shown text = .ok result → result.fixesApplied = 0) →
    after.get? place = some (.file (.text text))
  /-- A file that holds no text holds what it held. -/
  binary : ∀ place bytes, tree.get? place = some (.file (.binary bytes)) →
    after.get? place = some (.file (.binary bytes))
  /-- A file to which no path leads that it finds holds what it held. -/
  others : ∀ place c, tree.get? place = some (.file c) →
    (∀ engine file, Discovers env options tree engine file →
      ¬tree.LeadsTo env.directory file place) →
    after.get? place = some (.file c)

section

variable {env : Environment} {options : CheckOptions} {tree after : Entry}

theorem MayLeave.get?_or (hnamed : tree.isNamed = true) (h : MayLeave env options tree after)
    {place : Place} {c : Content} (hget : tree.get? place = some (.file c)) :
    after.get? place = some (.file c) ∨
      ∃ engine file, Discovers env options tree engine file ∧
        tree.LeadsTo env.directory file place ∧ ∃ text result content, c = .text text ∧
          fixText engine file.shown text = .ok result ∧ 0 < result.fixesApplied ∧
          HoldsWritten env.refusals file result.output content ∧
          after.get? place = some (.file content) := by
  cases h with
  | untouched => exact Or.inl hget
  | @fixing session said files taken after _ hsession hfound htaken =>
    obtain ⟨hsub, rfl⟩ := htaken.eq_applyWrites hnamed hfound
    refine (get?_applyWrites_fixWrites_or hnamed hfound (by simpa using hsub) hget).imp_right ?_
    rintro ⟨file, hfile, hleads, text, result, content, hc, hfix, hpos, hstored, hafter⟩
    exact ⟨session.engine, file,
      ⟨session, said, hsession, rfl, (mem_discover?_iff hnamed hfound).mp hfile⟩, hleads, text,
      result, content, hc, hfix, hpos, stored?_eq_some_iff.mp hstored, hafter⟩

theorem MayLeave.shape (hnamed : tree.isNamed = true) (h : MayLeave env options tree after) :
    after.shape = tree.shape := by
  cases h with
  | untouched => rfl
  | fixing _ _ hfound htaken =>
    obtain ⟨-, rfl⟩ := htaken.eq_applyWrites hnamed hfound
    exact applyWrites_fixWrites_shape

theorem Discovers.unique {engine engine' : Engine} {file file' : ByteString} {place : Place}
    (hnamed : tree.isNamed = true) (h : Discovers env options tree engine file)
    (h' : Discovers env options tree engine' file') (hleads : tree.LeadsTo env.directory file place)
    (hleads' : tree.LeadsTo env.directory file' place) : engine = engine' ∧ file = file' := by
  obtain ⟨session, said, hsession, rfl, hsource⟩ := h
  obtain ⟨session', said', hsession', rfl, hsource'⟩ := h'
  obtain ⟨rfl, rfl⟩ : session = session' ∧ said = said' := by
    simpa using hsession.symm.trans hsession'
  obtain ⟨e, below, c, hfind, -⟩ := id hsource
  obtain ⟨files, hfound⟩ : ∃ files, discover? env.refusals tree env.directory options.path
      (session.exclusion.excludes env.directory) = some files :=
    ⟨_, discover?_eq_some_iff.mpr ⟨e, hfind, rfl⟩⟩
  exact ⟨rfl, discover?_injective hnamed hfound ((mem_discover?_iff hnamed hfound).mpr hsource)
    ((mem_discover?_iff hnamed hfound).mpr hsource') hleads hleads'⟩

theorem MayLeave.spares (hnamed : tree.isNamed = true) (h : MayLeave env options tree after) :
    Spares env options tree after := by
  have hfound : ∀ engine file place text, Discovers env options tree engine file →
      tree.LeadsTo env.directory file place → tree.get? place = some (.file (.text text)) →
      after.get? place = some (.file (.text text)) ∨
        ∃ result c, fixText engine file.shown text = .ok result ∧ 0 < result.fixesApplied ∧
          HoldsWritten env.refusals file result.output c ∧ after.get? place = some (.file c) := by
    intro engine file place text hdiscovers hleads hget
    refine (h.get?_or hnamed hget).imp_right ?_
    rintro ⟨engine', file', hdiscovers', hleads', text', result, c, htext, hfix, hpos, hrest⟩
    obtain ⟨rfl, rfl⟩ := hdiscovers.unique hnamed hdiscovers' hleads hleads'
    obtain rfl := Content.text.inj htext
    exact ⟨result, c, hfix, hpos, hrest⟩
  constructor
  case plain =>
    intro hfix
    cases h with
    | untouched => rfl
    | fixing hfix' => simp [hfix] at hfix'
  case shape => exact h.shape hnamed
  case found =>
    intro engine file place text hdiscovers hleads hget
    refine (hfound engine file place text hdiscovers hleads hget).imp_right ?_
    exact fun ⟨result, c, hfix, _, hrest⟩ => ⟨result, c, hfix, hrest⟩
  case unfixed =>
    intro engine file place text hdiscovers hleads hget hnone
    obtain hsame | ⟨result, c, hfix, hpos, -⟩ :=
      hfound engine file place text hdiscovers hleads hget
    · exact hsame
    · exact absurd (hnone result hfix) (by omega)
  case binary =>
    intro place bytes hget
    obtain hsame | ⟨-, -, -, -, text, result, c, htext, -⟩ := h.get?_or hnamed hget
    · exact hsame
    · cases htext
  case others =>
    intro place c hget hnot
    obtain hsame | ⟨engine, file, hdiscovers, hleads, -⟩ := h.get?_or hnamed hget
    · exact hsame
    · exact absurd hleads (hnot engine file hdiscovers)

end

theorem check_fixes_all {env : Environment} {log : Log.Settings} {options : CheckOptions}
    {tree : Entry} (hnamed : tree.isNamed = true) (hfix : options.fix = true)
    (hdone : ¬(check env log tree options).Aborts) {engine : Engine} {file : ByteString}
    {text : String} (hdiscovers : Discovers env options tree engine file)
    (hread : env.refusals.read tree env.directory file = .ok text) :
    ∃ result, fixText engine file.shown text = .ok result ∧
      (applyWrites env.directory (check env log tree options).writes tree).read env.directory file =
        .ok result.output := by
  obtain ⟨session, said, files, hsession, hfound, hprocessed⟩ := exists_session_of_not_aborts hdone
  obtain ⟨-, hwrites⟩ := check_of_no_failure env log options hsession hfound hprocessed
  obtain ⟨session', said', hsession', rfl, hsource⟩ := hdiscovers
  obtain ⟨rfl, rfl⟩ : session = session' ∧ said = said' := by
    simpa using hsession.symm.trans hsession'
  have hfile := (mem_discover?_iff hnamed hfound).mpr hsource
  have hnone := hprocessed file hfile
  rw [hfix] at hwrites hnone
  simp only [processFile, hread, if_true] at hnone
  obtain ⟨result, hresult, hwritten, -⟩ := fixFile_of_no_failure hnone
  refine ⟨result, hresult, ?_⟩
  rw [hwrites]
  exact read_applyWrites_of_fixText hnamed hfound (List.Subset.refl files) hfile hfile hread hresult
    hwritten

/-- A check leaves one of the trees that it can leave. Each of them differs from the first tree only
in the source files that were found, and in those only as fixing their texts and writing the outputs
has it. If the check fixes and is not aborted, all of them are fixed. A run does the check that its
arguments ask for. -/
theorem check_spares (env : Environment) (log : Log.Settings) (tree : Entry)
    (options : CheckOptions) (hnamed : tree.isNamed = true) :
    let left := applyWrites env.directory (check env log tree options).writes tree
    MayLeave env options tree left ∧
    (∀ after, MayLeave env options tree after → Spares env options tree after) ∧
    (options.fix = true → ¬(check env log tree options).Aborts → ∀ engine file text,
      Discovers env options tree engine file →
      env.refusals.read tree env.directory file = .ok text →
      ∃ result, fixText engine file.shown text = .ok result ∧
        left.read env.directory file = .ok result.output) ∧
    ∀ (args : List String) (invocation : Invocation),
      parseArguments args = .ok { invocation with action := .check options } →
      (run env tree args).writes = (check env log tree options).writes := by
  refine ⟨check_mayLeave env log options hnamed, fun after h => h.spares hnamed, ?_, ?_⟩
  · intro hfix hdone engine file text hdiscovers hread
    exact check_fixes_all hnamed hfix hdone hdiscovers hread
  · intro args invocation hargs
    simp only [run, hargs]
    exact check_writes_congr env _ log tree options

/-- A directory with a file that cannot be fixed behind one that can. The other files are left out
in one way or another. -/
def brokenTree : Entry :=
  .directory [
    ("mocklint.toml", .file (.text "exclude = [\"d.ts\"]")),
    ("a.ts", .file (.text "a as jest.Mock;")),
    ("b.ts", .file (.text "\ufeff;;;;;;x as jest.Mock<日>;")),
    ("c.ts", .file (.text "c as jest.Mock;")),
    ("d.ts", .file (.text "d as jest.Mock;")),
    ("e.md", .file (.text "e as jest.Mock;")),
    ("f.ts", .file (.binary [255])),
    ("node_modules", .directory [("g.ts", .file (.text "g as jest.Mock;"))])]

def fixOptions : CheckOptions := { path := ".", fix := true }

theorem brokenTree_spares :
    (run rootEnvironment brokenTree ["check", ".", "--fix"]).code = 1 ∧
    (run rootEnvironment brokenTree ["check", ".", "--fix"]).writes =
      [(ByteString.ofString "./a.ts", Content.text "jest.mocked(a);")] ∧
    Spares rootEnvironment fixOptions brokenTree
      (applyWrites [] (run rootEnvironment brokenTree ["check", ".", "--fix"]).writes
        brokenTree) := by
  obtain ⟨hleft, hspares, -, hrun⟩ := check_spares rootEnvironment
    (logSettings rootEnvironment { action := .check fixOptions }) brokenTree fixOptions
    (by decide +kernel)
  have hargs : parseArguments ["check", ".", "--fix"] = .ok { action := .check fixOptions } := by
    decide +kernel
  refine ⟨by decide +kernel, by decide +kernel, hspares _ ?_⟩
  rw [hrun _ { action := .check fixOptions } hargs]
  exact hleft

/-- A directory with a link under the name of a source file. The system refuses to write more than
four bytes to a file. -/
def aliasTree : Entry :=
  .directory [
    ("a.ts", .link "notes.txt"),
    ("b.ts", .file (.text "b as jest.Mock;")),
    ("notes.txt", .file (.text "foo as jest.Mock;"))]

def fullEnvironment : Environment where
  directory := []
  time := ""
  refusals := { Refusals.ofLength with
    writes := fun _ => some ⟨.other "No space left on device (os error 28)", some 4⟩ }

/-- A file without the name of a source file is written if a link leads to it. A failed write leaves
neither what a file held nor what fixing makes of that. -/
theorem aliasTree_not_spared :
    aliasTree.isNamed = true ∧
    isSource "notes.txt" = false ∧
    aliasTree.read [] "notes.txt" = .ok "foo as jest.Mock;" ∧
    (applyWrites [] (run rootEnvironment aliasTree ["check", "a.ts", "--fix"]).writes
      aliasTree).read [] "notes.txt" = .ok "jest.mocked(foo);" ∧
    discover? fullEnvironment.refusals aliasTree [] "." (fun _ => false) =
      some [ByteString.ofString "./b.ts"] ∧
    (fixText (Engine.ofSettings {}) "./b.ts" "b as jest.Mock;").map (·.output) =
      .ok "jest.mocked(b);" ∧
    (applyWrites [] (run fullEnvironment aliasTree ["check", ".", "--fix"]).writes
      aliasTree).read [] "b.ts" = .ok "jest" := by
  refine ⟨by decide +kernel, by decide +kernel, by decide +kernel, ?_⟩
  exact ⟨by decide +kernel, by decide +kernel, by decide +kernel, by decide +kernel⟩

end Command
end CastLint
