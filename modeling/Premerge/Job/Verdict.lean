import Premerge.Failure
import Premerge.Run.Outcome

namespace Premerge

open Premerge.Data

structure Verdict where
  passed : Bool
  violations : List String
  message : String
  deriving DecidableEq, Repr

def Outcome.violation (o : Outcome) : Failure :=
  let reason := o.failureReason?.getD "failed"
  match o.kind with
  | .migrationCheck => .migration o.toolName reason
  | .generic | .testRunner => .tool o.toolName reason

namespace Verdict

def abortedNames (outcomes : List Outcome) : List String :=
  (outcomes.filter Outcome.isAborted).map Outcome.toolName

def causes (outcomes : List Outcome) (deadlineSecs : Option Nat) : List Failure :=
  (outcomes.filter Outcome.isFatalFailure).map Outcome.violation
    ++ (deadlineSecs.map fun seconds => Failure.deadline seconds (abortedNames outcomes)).toList

def ofOutcomes (outcomes : List Outcome) (deadlineSecs : Option Nat) : Verdict :=
  let found := (causes outcomes deadlineSecs).map Failure.message
  let ran := (outcomes.filter Outcome.ran).length
  { passed := found.isEmpty
    violations := found
    message :=
      if found.isEmpty then "All checks passed (" ++ toString ran ++ " tool(s) ran)"
      else "Job failed with " ++ toString found.length ++ " violation(s)" }

def decoder : Decoder Verdict := fun reading value => do
  let fields ← Fields.ofValue reading ["passed", "violations", "message"] value
  some ⟨← fields.required reading "passed" .bool,
    ← fields.required reading "violations" (.list .text),
    ← fields.required reading "message" .text⟩

def toValue (v : Verdict) : Value :=
  .table [("passed", .bool v.passed), ("violations", .texts v.violations),
    ("message", .text v.message)]

end Verdict

structure Tally where
  passed : Nat
  failed : Nat
  skipped : Nat
  deriving DecidableEq, Repr

def Tally.ofOutcomes (outcomes : List Outcome) : Tally where
  passed := (outcomes.filter fun o => o.ran && o.passed).length
  failed := (outcomes.filter Outcome.failed).length
  skipped := (outcomes.filter (!·.ran)).length

end Premerge
