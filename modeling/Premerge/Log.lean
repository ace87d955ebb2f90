import Premerge.Failure
import Premerge.Text.Quoted

namespace Premerge

open Premerge.Data
open Premerge.World (Path)

inductive Severity where
  | debug
  | info
  | warn
  deriving DecidableEq, Repr

def Severity.name : Severity → String
  | .debug => "DEBUG"
  | .info => "INFO"
  | .warn => "WARN"

inductive Event where
  | validationStarted (repository : Path) (base head : String)
  | jobStarted (job headSha : String) (pr : Option String)
  | changesClassified (files : Nat) (predicates : List String)
  | composeCalled (arguments : List String)
  | serviceReady (service : String) (waitedMs : Nat)
  | servicesStopped (services : List String)
  | startTeardownFailed (failure : Failure)
  | teardownFailed (failure : Failure)
  | servicesLeft (services : List String)
  | toolSkipped (tool reason : String)
  | toolFinished (tool : String) (exitCode : Int) (durationMs : Nat) (isFatal : Bool)
  | toolErrored (tool : String) (failure : Failure)
  | fragmentUnplaced (fragment : String)
  | summaryPublished (fragments : Nat) (path : Path)
  | summaryWritten (path : Path)
  | jobFinished (job : String) (durationMs : Nat) (success : Bool)
  | verdictReached (message : String)
  deriving DecidableEq, Repr

namespace Event

def severity : Event → Severity
  | composeCalled _ => .debug
  | startTeardownFailed _ | teardownFailed _ | servicesLeft _ | toolErrored _ _
  | fragmentUnplaced _ => .warn
  | _ => .info

def source : Event → String
  | validationStarted _ _ _ | summaryWritten _ => "prgate"
  | composeCalled _ | startTeardownFailed _ | servicesLeft _ => "prgate_ci::services"
  | teardownFailed _ | verdictReached _ => "prgate_ci::pipeline"
  | fragmentUnplaced _ => "prgate_ci::summary"
  | _ => "prgate_core::obs"

def namesField (names : List String) : Value :=
  .text (",".intercalate names)

def step (name : String) (fields : List (String × Value)) : List (String × Value) :=
  ("event", .text name) :: fields

def said (message : String) (fields : List (String × Value)) : List (String × Value) :=
  ("message", .text message) :: fields

def fields : Event → List (String × Value)
  | validationStarted repository base head =>
    said "Starting validation"
      [("repo", .text repository), ("base", .text base), ("head", .text head)]
  | jobStarted job headSha pr =>
    step "job.started"
      [("job_id", .text job), ("head_sha", .text headSha), ("pr", .text (pr.getD "-"))]
  | changesClassified files predicates =>
    step "changes.classified" [("files", .nat files), ("predicates", namesField predicates)]
  | composeCalled arguments =>
    said "docker compose" [("args", .text (Text.Quoted.quotedList arguments))]
  | serviceReady service waitedMs =>
    step "service.ready" [("service", .text service), ("waited_ms", .nat waitedMs)]
  | servicesStopped services => step "service.stopped" [("services", namesField services)]
  | startTeardownFailed failure =>
    said "teardown after failed startup also failed" [("error", .text failure.message)]
  | teardownFailed failure => said "service teardown failed" [("error", .text failure.message)]
  | servicesLeft services =>
    said "service session dropped without stop; services may still be running"
      [("services", namesField services)]
  | toolSkipped tool reason => step "tool.skipped" [("tool", .text tool), ("reason", .text reason)]
  | toolFinished tool exitCode durationMs isFatal =>
    step "tool.finished" [("tool", .text tool), ("exit_code", .int exitCode),
      ("duration_ms", .nat durationMs), ("fatal", .bool isFatal)]
  | toolErrored tool failure =>
    step "tool.errored" [("tool", .text tool), ("error", .text failure.message)]
  | fragmentUnplaced fragment =>
    said "fragment has no place in the summary order" [("fragment", .text fragment)]
  | summaryPublished fragments path =>
    step "summary.published" [("fragments", .nat fragments), ("path", .text path)]
  | summaryWritten path => said "Summary written" [("path", .text path)]
  | jobFinished job durationMs success =>
    step "job.finished"
      [("job_id", .text job), ("duration_ms", .nat durationMs), ("success", .bool success)]
  | verdictReached message => said "job verdict" [("message", .text message)]

end Event

end Premerge
