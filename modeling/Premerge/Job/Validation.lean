import Premerge.Config.Validation
import Premerge.Job.Report
import Premerge.Report.Publication
import Premerge.Repository
import Premerge.Run.Execution
import Premerge.Service.Session

namespace Premerge

open Premerge.Change (ChangeSet)
open Premerge.Report (Directory Fragment Summary)

variable {σ : Type}

namespace Job

def resolve (request : Request) (toolNames : List String) : Action σ Job := do
  let headSha ← Repository.commitOf request.repository request.head
  let mergeBase ← Repository.mergeBase request.repository request.base headSha
  let bits ← Action.draw
  let startedAt := (← get).timestamp
  pure {
    id := idOfBits bits
    pr := request.pr
    repository := request.repository
    base := request.base
    headSha
    mergeBase
    toolsDigest := digest toolNames
    startedAt }

def checkMessage (job : Job) (limit : Nat) : Action σ Unit := do
  let text ← Repository.messageOf job.repository job.headSha
  Action.ofExcept ((CommitMessage.ofText text).check limit)

def heldPredicates (changes : ChangeSet) : List String :=
  (changes.predicates.values.filter (·.isMatched)).map (·.name)

def classify (job : Job) (c : Config) : Action σ ChangeSet := do
  let files ← Repository.changedFiles job.repository job.mergeBase job.headSha
  let changes ← Action.ofExcept (ChangeSet.classify files c.predicates)
  Action.log (.changesClassified changes.files.length (heldPredicates changes))
  pure changes

def openReports (job : Job) (request : Request) : Action σ Directory := do
  let reports ← Directory.create request.reports
  let _ ← reports.writeEnvironment job.environment
  pure reports

structure Prepared where
  tools : List Tool
  job : Job
  began : Nat
  place : Workplace

def prepare (c : Config) (request : Request) : Action σ Prepared := do
  let table ← Action.ofExcept c.toolTable
  let job ← Job.resolve request table.names
  let began := (← get).now
  Action.log (.jobStarted job.id job.headSha job.pr)
  job.checkMessage c.commit.maxLineLength
  let changes ← job.classify c
  -- No file is touched before the change has been accepted.
  let reports ← job.openReports request
  pure { tools := table.tools, job, began, place := ⟨reports, request.repository, changes⟩ }

/-- How long services may take to start: never longer than the tools. -/
def patience (c : Config) : Patience where
  window := min c.services.startupTimeoutMs c.jobTimeoutMs
  interval := c.services.pollIntervalMs

def runTools (c : Config) (tools : List Tool) (place : Workplace) :
    Action σ Workplace.Results := do
  let w ← get
  let (results, w) := place.runTools c.parallelTools (some (w.now + c.jobTimeoutMs)) tools w
  set w
  pure results

/-- Ends the services. A failure is only reported, since the tools have run. -/
def stopServices (runtime : Runtime σ) (session : Session) : Action σ Unit := do
  match ← Action.attempt (session.stop runtime) with
  | .ok () => pure ()
  | .error e => Action.log (.teardownFailed e)

def fragmentsOf (outcomes : List Outcome) : List Fragment :=
  (outcomes.filter Outcome.ran).flatMap fun o => Fragment.ofOutput o.reportName o.kind o.output

def writeFragments (reports : Directory) : List Fragment → Action σ Unit
  | [] => pure ()
  | fragment :: rest => do
    let _ ← reports.writeFragment fragment
    writeFragments reports rest

def conclude (c : Config) (request : Request) (job : Job) (began : Nat) (reports : Directory)
    (results : Workplace.Results) : Action σ JobReport := do
  let fragments := fragmentsOf results.outcomes
  writeFragments reports fragments
  let deadline := if results.deadlineExceeded then some c.jobTimeoutSecs else none
  let verdict := Verdict.ofOutcomes results.outcomes deadline
  let summary ← Summary.announce c.summaryOrder fragments verdict.violations
  let summaryPath ← summary.publish reports request.sharedSummary
  let durationMs := (← get).now - began
  Action.log (.jobFinished job.id durationMs verdict.passed)
  Action.log (.verdictReached verdict.message)
  pure {
    job
    success := verdict.passed
    outcomes := results.outcomes
    verdict
    summary
    summaryPath
    deadlineExceeded := results.deadlineExceeded
    durationMs }

end Job

def Config.run (c : Config) (runtime : Runtime σ) (request : Request) : Action σ JobReport := do
  let prepared ← Job.prepare c request
  let session ← Session.start runtime (Job.patience c) c.services.required c.services.names
  let results ← Job.runTools c prepared.tools prepared.place
  -- Nothing is published before the services are down.
  Job.stopServices runtime session
  Job.conclude c request prepared.job prepared.began prepared.place.reports results

end Premerge
