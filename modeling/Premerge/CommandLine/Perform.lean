import Premerge.CommandLine.Command
import Premerge.CommandLine.LogFilter
import Premerge.Config.Text
import Premerge.Data.Json.Printer
import Premerge.Job.Validation
import Premerge.Service.Compose

namespace Premerge.CommandLine

open Premerge.Data
open Premerge.Report (Directory Fragment Summary)
open Premerge.Text.Utf8 (decode)
open Premerge.World (Path SystemError)

variable {σ : Type}

structure Complaint where
  text : String
  causes : List String
  deriving DecidableEq, Repr

namespace Complaint

def indented (indentation text : String) : String :=
  ("\n" ++ indentation).intercalate ((Text.Line.pieces '\n' text.toList).map String.ofList)

def padded (width : Nat) (text : String) : String :=
  String.ofList (List.replicate (width - text.length) ' ') ++ text

def numbered : Nat → List String → List String
  | _, [] => []
  | number, cause :: rest =>
    (padded 5 (toString number) ++ ": " ++ indented "       " cause) :: numbered (number + 1) rest

def causeLines : List String → List String
  | [cause] => ["    " ++ indented "    " cause]
  | causes => numbered 0 causes

def render (c : Complaint) : String :=
  "Error: " ++ c.text
    ++ (if c.causes.isEmpty then ""
      else "\n\nCaused by:\n" ++ "\n".intercalate (causeLines c.causes)) ++ "\n"

def ofFailure (e : Failure) : Complaint := ⟨e.message, e.cause?.toList⟩

def inContext (context : String) (e : Failure) : Complaint :=
  ⟨context, e.message :: e.cause?.toList⟩

end Complaint

structure Printed where
  output : String
  complaint : Option Complaint
  deriving DecidableEq, Repr

abbrev Task (σ : Type) := ExceptT Complaint (StateM (World σ))

def Task.ofAction {α : Type} (tell : Failure → Complaint) (a : Action σ α) : Task σ α := do
  match (← ExceptT.lift a.run) with
  | .ok a => pure a
  | .error e => throw (tell e)

def loadConfig (path : Option Path) (repository : Path) : Task σ Config := do
  let files := (← get).files
  Task.ofAction (.inContext "Failed to load pipeline configuration")
    (Action.ofExcept (Config.loadOrStandard files path repository))

def printed (output : String) : Printed := ⟨output, none⟩

def goodMark : String := "✓"

def badMark : String := "✗"

def outcomeLine (o : Outcome) : String :=
  let mark := if !o.ran then "-" else if o.passed then goodMark else badMark
  let detail := match o.failureReason? with
    | some reason => " (" ++ reason ++ ")"
    | none => if o.ran then "" else " (skipped)"
  "  " ++ mark ++ " " ++ o.toolName ++ detail ++ "\n"

def tallyLine (t : Tally) : String :=
  "Summary: " ++ toString t.passed ++ " passed, " ++ toString t.failed ++ " failed, "
    ++ toString t.skipped ++ " skipped\n"

def violationLines (violations : List String) : String :=
  if violations.isEmpty then ""
  else "Violations:\n" ++ String.join (violations.map fun v => "  - " ++ v ++ "\n")

def reportText (r : JobReport) : String :=
  "Job ID: " ++ r.job.id ++ "\n" ++ "Head: " ++ r.job.headSha ++ "\n"
    ++ "Status: " ++ (if r.success then goodMark ++ " PASSED" else badMark ++ " FAILED") ++ "\n"
    ++ "Duration: " ++ toString r.durationMs ++ "ms\n\n"
    ++ String.join (r.outcomes.map outcomeLine) ++ "\n" ++ tallyLine r.tally
    ++ "Report: " ++ r.summaryPath ++ "\n" ++ violationLines r.verdict.violations

def performRun (request : Request) (config : Option Path) (asData : Bool) : Task σ Printed := do
  let c ← loadConfig config request.repository
  let composition : Composition :=
    ⟨c.services.composeFile, c.services.projectName, some request.repository⟩
  modify (·.log (.validationStarted request.repository request.base request.head))
  let report ← Task.ofAction (.inContext "Validation aborted") (c.run composition.runtime request)
  let output := if asData then Json.pretty report.toValue ++ "\n" else reportText report
  pure ⟨output, if report.success then none else some ⟨"Validation failed", []⟩⟩

def performCheckCommit (repository : Path) (head : String) (config : Option Path)
    (limit : Option Nat) : Task σ Printed := do
  let limit ← match limit with
    | some limit => pure limit
    | none => do pure (← loadConfig config repository).commit.maxLineLength
  let text ← Task.ofAction (.inContext ("Failed to read commit message of " ++ head))
    (Repository.messageOf repository head)
  Task.ofAction .ofFailure (Action.ofExcept ((CommitMessage.ofText text).check limit))
  pure (printed (goodMark ++ " Commit message lines are at most " ++ toString limit
    ++ " characters\n"))

def performClassify (repository : Path) (base head : String) (config : Option Path) :
    Task σ Printed := do
  let c ← loadConfig config repository
  let files ← Task.ofAction (.inContext "Failed to diff")
    (Repository.changedFiles repository base head)
  let changes ← Task.ofAction .ofFailure
    (Action.ofExcept (Change.ChangeSet.classify files c.predicates))
  pure (printed (Json.pretty changes.toValue ++ "\n"))

def kindOf? (text : String) : Option ToolKind :=
  match text with
  | "generic" => some .generic
  | "test-runner" | "test_runner" => some .testRunner
  | "migration-check" | "migration_check" => some .migrationCheck
  | _ => none

def performNormalize (tool : String) (input : Path) (kind : String) : Task σ Printed := do
  match kindOf? kind with
  | none => throw ⟨"Unknown report kind: " ++ kind, []⟩
  | some kind =>
    match (← get).files.read input with
    | .error e => throw ⟨"Failed to read " ++ input, [e.message]⟩
    | .ok octets =>
      let fragments := Fragment.ofOutput tool kind (decode octets)
      pure (printed (String.join (fragments.map Fragment.body)))

def performSummarize (repository reports : Path) (config : Option Path) (write : Bool) :
    Task σ Printed := do
  let c ← loadConfig config repository
  let directory ← Task.ofAction .ofFailure (Directory.open? reports)
  let summary ← Task.ofAction .ofFailure (Summary.ofDirectory c.summaryOrder directory [])
  if write then
    let path ← Task.ofAction (.inContext "Failed to write summary") (summary.publish directory none)
    modify (·.log (.summaryWritten path))
  pure (printed summary.text)

def Command.perform : Command → Task σ Printed
  | run request config asData => performRun request config asData
  | checkCommit repository head config limit => performCheckCommit repository head config limit
  | classify repository base head config => performClassify repository base head config
  | normalize tool input kind => performNormalize tool input kind
  | summarize repository reports config write => performSummarize repository reports config write

structure Exit where
  status : Nat
  output : String
  complaint : String
  deriving DecidableEq, Repr

def Exit.ofPrinted (p : Printed) : Exit :=
  match p.complaint with
  | none => ⟨0, p.output, ""⟩
  | some complaint => ⟨1, p.output, complaint.render⟩

def usage : String := "Usage: prgate [OPTIONS] <COMMAND>\n"

def Exit.ofStop : Stop → Exit
  | .misuse => ⟨2, "", usage⟩
  | .help => ⟨0, usage, ""⟩
  | .version => ⟨0, "prgate " ++ Premerge.version ++ "\n", ""⟩

def logLine (asData : Bool) (e : Event) : String :=
  if asData then
    Json.compact (.table [("level", .text e.severity.name), ("fields", .table e.fields)]) ++ "\n"
  else
    e.severity.name ++ " "
      ++ " ".intercalate (e.fields.map fun (name, value) => name ++ "=" ++ Json.compact value)
      ++ "\n"

def Command.configPaths : Command → List Path
  | run request config _ => configFiles request.repository config
  | checkCommit repository _ config _ | classify repository _ _ config
  | summarize repository _ config _ => configFiles repository config
  | normalize _ _ _ => []
where
  configFiles (repository : Path) : Option Path → List Path
    | some path => [path]
    | none => [World.Path.join repository Config.fileName]

def fragmentNames (files : World.FileTree) (repository : Path) (config : Option Path) :
    List String :=
  match Config.loadOrStandard files config repository with
  | .ok c => c.summaryOrder
  | .error _ => []

def Command.inputPaths (files : World.FileTree) : Command → List Path
  | run request _ _ => request.sharedSummary.toList
  | normalize _ input _ => [input]
  | summarize repository reports config _ =>
    let directory : Directory := ⟨reports⟩
    directory.summaryPath
      :: (fragmentNames files repository config).map directory.fragmentPath
  | _ => []

def Invocation.execute (i : Invocation) (w : World σ) : Exit × World σ :=
  match i.command.perform.run.run w with
  | (.ok p, w) => (.ofPrinted p, w)
  | (.error complaint, w) => (⟨1, "", complaint.render⟩, w)

end Premerge.CommandLine
