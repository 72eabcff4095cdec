import CastLint.Command.Arguments
import CastLint.Command.Outcome
import CastLint.Config.Search
import CastLint.Files.Discovery
import CastLint.Lint.Fixing
import CastLint.Report.Brief
import CastLint.Report.Document

/-! The command that reports findings in source files and fixes them on demand. -/

namespace CastLint
namespace Command

open Lint

structure FileReport where
  path : ByteString
  /-- The text that the findings are about. -/
  source : String
  diagnostics : List Diagnostic
  fixesApplied : Nat := 0
  /-- Fixing ended before it had come to rest. -/
  exhausted : Bool := false
deriving DecidableEq, Repr

inductive FileResult where
  | report (r : FileReport)
  | unreadable (path : ByteString) (error : Files.AccessError)
  | failed (error : InvalidRange)
  | unwritten (r : FileReport) (fault : Files.WriteFault)
deriving DecidableEq, Repr

namespace FileResult

def report? : FileResult → Option FileReport
  | report r => some r
  | _ => none

def failure? : FileResult → Option Failure
  | failed e => some ⟨e.message, []⟩
  | unwritten r fault => some ⟨"failed to write fixes to " ++ r.path.shown, [fault.error.message]⟩
  | _ => none

def write? : FileResult → Option (ByteString × Files.Content)
  | report r => if 0 < r.fixesApplied then some (r.path, .text r.source) else none
  | unwritten r fault => (fault.left? r.source).map fun content => (r.path, content)
  | _ => none

end FileResult

def FileReport.ofFix (path : ByteString) (r : FixResult) : FileReport where
  path := path
  source := r.output
  diagnostics := r.diagnostics
  fixesApplied := r.fixesApplied
  exhausted := r.passes = maxFixPasses

def fixFile (engine : Engine) (refusals : Files.Refusals) (path : ByteString) (text : String) :
    FileResult :=
  match fixText engine path.shown text with
  | .error e => .failed e
  | .ok r =>
    match if r.changed then refusals.writes path else none with
    | some fault => .unwritten (.ofFix path r) fault
    | none => .report (.ofFix path r)

def processFile (engine : Engine) (refusals : Files.Refusals) (tree : Files.Entry)
    (here : Files.Place) (fix : Bool) (path : ByteString) : FileResult :=
  match refusals.read tree here path with
  | .error e => .unreadable path e
  | .ok text =>
    if fix then fixFile engine refusals path text
    else .report { path := path, source := text, diagnostics := engine.analyzeText path.shown text }

/-- The results of files one after another, up to the first failure. -/
def processFiles (process : ByteString → FileResult) : List ByteString → List FileResult
  | [] => []
  | path :: paths =>
    let r := process path
    if r.failure?.isSome then [r] else r :: processFiles process paths

def FileReport.event? (r : FileReport) : Option Log.Event :=
  if r.exhausted then
    some {
      level := .warn, target := "mocklint_core::fixer"
      message := "fixes did not converge; leaving remaining fixes unapplied"
      fields := [("file", .quoted r.path.shown), ("passes", .number maxFixPasses)] }
  else none

def FileResult.event? : FileResult → Option Log.Event
  | report r => r.event?
  | unwritten r _ => r.event?
  | unreadable path error =>
    some {
      level := .warn, target := "mocklint::commands::check"
      message := "skipping unreadable file"
      fields := [("file", .text path.shown), ("error", .text error.message)] }
  | failed _ => none

def settingsEvents (engine : Engine) : List Log.Event :=
  engine.warnings.map fun w =>
    { level := .warn, target := "mocklint_core::rules", message := w.message }

def skippedEvent (directory : ByteString × Files.AccessError) : Log.Event where
  level := .warn
  target := "mocklint::commands::check"
  message := "skipping unreadable directory entry"
  fields := [("error", .text ("IO error for operation on " ++ directory.1.shown ++ ": " ++
    directory.2.message))]

def startEvent (files : Nat) (fix : Bool) : Log.Event where
  level := .info
  target := "mocklint::commands::check"
  message := "starting analysis"
  fields := [("files", .number files), ("fix", .boolean fix)]

variable (coloured : Report.Coloured)

def warningLine (message : String) : String :=
  Report.paint coloured (.strong .yellow) "warning:" ++ " " ++ message ++ "\n"

def fixedLine (reports : List FileReport) : String :=
  let total := (reports.map (·.fixesApplied)).foldl (· + ·) 0
  if total = 0 then ""
  else
    Report.paint coloured (.strong .green) "fixed:" ++ " " ++ toString total ++ " fix(es) in " ++
      toString (reports.countP (0 < ·.fixesApplied)) ++ " file(s)\n"

def reportText (format : Format) (subject : Report.Subject) (reports : List FileReport) : String :=
  let findings := reports.flatMap (·.diagnostics)
  match format with
  | .json => subject.documentText findings ++ "\n"
  | .ndjson => subject.recordsText findings
  | .text => Report.brief coloured findings
  | .pretty =>
    (if reports.isEmpty then "No JavaScript/TypeScript files found.\n" else "") ++
      -- of files that are shown under one name, the last one counts
      Report.excerpts coloured (reports.map fun r => (r.path.shown, r.source)).reverse findings

/-- Errors fail a run, and warnings do so on demand. -/
def exitCode (failOnWarnings : Bool) (findings : List Diagnostic) : Nat :=
  if findings.any (·.severity = .error) ||
      (failOnWarnings && findings.any (·.severity = .warning)) then 1
  else 0

def loadFailure (e : Config.LoadError) : Failure where
  message := e.message
  causes := e.cause?.toList

def Failure.within (f : Failure) (message : String) : Failure := ⟨message, f.message :: f.causes⟩

structure Session where
  loaded : Config.Loaded
  exclusion : Config.Exclusion
deriving Inhabited

def Session.engine (s : Session) : Engine := Engine.ofSettings s.loaded.settings.ruleSettings

/-- The session for a path: from the nearest configuration, or else with default settings. The
second part is what is said on the way. -/
def openSession (refusals : Files.Refusals) (tree : Files.Entry) (here : Files.Place)
    (path : ByteString) : Except Failure Session × String :=
  match Config.loadNearest refusals tree here path with
  | .error e => (.error ((loadFailure e).within "failed to load mocklint configuration"), "")
  | .ok loaded =>
    let warnings := String.join (loaded.warnings.map (warningLine coloured))
    match loaded.exclusion with
    | .error e => (.error ⟨e.message, [e.reason]⟩, warnings)
    | .ok exclusion => (.ok ⟨loaded, exclusion⟩, warnings)

def checkColoured (env : Environment) (options : CheckOptions) : Report.Coloured :=
  !options.noColor && !env.isSet "NO_COLOR" && env.coloured

def conclude (env : Environment) (log : Log.Settings) (options : CheckOptions)
    (registry : Registry) (stderr : String) (results : List FileResult) : Outcome :=
  let reports := results.filterMap FileResult.report?
  let writes := results.filterMap FileResult.write?
  let stderr := stderr ++ String.join ((results.filterMap FileResult.event?).map log.line)
  match results.findSome? FileResult.failure? with
  | some failure => failure.outcome stderr writes
  | none =>
    let subject : Report.Subject := {
      registry := registry
      workingDirectory := (Files.Place.text env.directory).shown
      path := options.path.shown
      totalFiles := reports.length }
    { code := exitCode options.failOnWarnings (reports.flatMap (·.diagnostics))
      stdout := reportText coloured options.format subject reports
      stderr := stderr ++ fixedLine coloured reports
      writes := writes }

def check (env : Environment) (log : Log.Settings) (tree : Files.Entry) (options : CheckOptions) :
    Outcome :=
  let here := env.directory
  let coloured := checkColoured env options
  match openSession coloured env.refusals tree here options.path with
  | (.error failure, said) => failure.outcome said []
  | (.ok session, said) =>
    let engine := session.engine
    let said := said ++ String.join ((settingsEvents engine).map log.line) ++
      String.join (engine.warnings.map fun w => warningLine coloured w.message)
    let excluded := session.exclusion.excludes here
    match Files.discover? env.refusals tree here options.path excluded with
    | none => Failure.outcome ⟨"Path does not exist: " ++ options.path.shown, []⟩ said []
    | some files =>
      let skipped := (Files.skipped env.refusals tree here options.path).map skippedEvent
      conclude coloured env log options engine.registry
        (said ++ String.join ((skipped ++ [startEvent files.length options.fix]).map log.line))
        (processFiles (processFile engine env.refusals tree here options.fix) files)

end Command
end CastLint
