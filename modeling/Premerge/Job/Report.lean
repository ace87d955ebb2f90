import Premerge.Job.Identity
import Premerge.Job.Verdict
import Premerge.Report.Summary

namespace Premerge

open Premerge.Data
open Premerge.World (Path)

structure Request where
  repository : Path
  base : String
  head : String
  pr : Option String
  reports : Path
  sharedSummary : Option Path
  deriving DecidableEq, Repr

structure JobReport where
  job : Job
  success : Bool
  outcomes : List Outcome
  verdict : Verdict
  summary : Report.Summary
  summaryPath : Path
  deadlineExceeded : Bool
  durationMs : Nat
  deriving DecidableEq, Repr

namespace JobReport

def tally (r : JobReport) : Tally :=
  .ofOutcomes r.outcomes

def toValue (r : JobReport) : Value :=
  .table [
    ("job", r.job.toValue),
    ("success", .bool r.success),
    ("outcomes", .list (r.outcomes.map Outcome.toValue)),
    ("verdict", r.verdict.toValue),
    ("summary", r.summary.toValue),
    ("summary_path", .text r.summaryPath),
    ("deadline_exceeded", .bool r.deadlineExceeded),
    ("duration_ms", .nat r.durationMs)]

end JobReport

end Premerge
