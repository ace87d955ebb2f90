import Premerge.Tool.Basic

namespace Premerge

open Premerge.Data

inductive ToolStatus where
  | skipped (reason : String)
  | finished (exitCode : Int)
  | errored (message : String)
  | aborted
  deriving DecidableEq, Repr, Inhabited

namespace ToolStatus

def tag : String := "status"

def name : ToolStatus → String
  | .skipped _ => "skipped"
  | .finished _ => "finished"
  | .errored _ => "errored"
  | .aborted => "aborted"

def ofParts (reading : Reading) (name : String) (rest : Value) : Option ToolStatus :=
  match name with
  | "skipped" => do
    let fields ← Fields.ofValue reading ["reason"] rest
    some (.skipped (← fields.required reading "reason" .text))
  | "finished" => do
    let fields ← Fields.ofValue reading ["exit_code"] rest
    some (.finished (← fields.required reading "exit_code" .int32))
  | "errored" => do
    let fields ← Fields.ofValue reading ["message"] rest
    some (.errored (← fields.required reading "message" .text))
  | "aborted" => do
    let _ ← Fields.ofValue reading [] rest
    some .aborted
  | _ => none

def decoder : Decoder ToolStatus := fun reading value =>
  match value with
  | .table entries => do
    let name ← (entries.lookup tag).bind (Decoder.text reading)
    ofParts reading name (.table entries)
  | .list (.text name :: rest) => ofParts reading name (.list rest)
  | _ => none

def toValue (s : ToolStatus) : Value :=
  .table ((tag, .text s.name) ::
    match s with
    | .skipped reason => [("reason", .text reason)]
    | .finished code => [("exit_code", .int code)]
    | .errored message => [("message", .text message)]
    | .aborted => [])

end ToolStatus

structure Outcome where
  toolName : String
  reportName : String
  kind : ToolKind
  policy : FailurePolicy
  status : ToolStatus
  output : String
  durationMs : Nat
  deriving DecidableEq, Repr

namespace Outcome

def ofTool (tool : Tool) (status : ToolStatus) : Outcome where
  toolName := tool.name
  reportName := tool.reportName
  kind := tool.kind
  policy := tool.effectivePolicy
  status
  output := ""
  durationMs := 0

def skipped (tool : Tool) (reason : String) : Outcome :=
  ofTool tool (.skipped reason)

def aborted (tool : Tool) (output : String) : Outcome :=
  { ofTool tool .aborted with output }

def ran (o : Outcome) : Bool :=
  match o.status with
  | .skipped _ => false
  | _ => true

def isAborted (o : Outcome) : Bool :=
  o.status == .aborted

def exitCode? (o : Outcome) : Option Int :=
  match o.status with
  | .finished code => some code
  | _ => none

def passed (o : Outcome) : Bool :=
  match o.status with
  | .skipped _ => true
  | .finished code => code == 0
  | .errored _ | .aborted => false

def failed (o : Outcome) : Bool :=
  !o.passed

/-- Whether the tool fails the job by itself; the deadline is a failure of the job. -/
def isFatalFailure (o : Outcome) : Bool :=
  o.policy == .fatal && o.failed && !o.isAborted

def failureReason? (o : Outcome) : Option String :=
  match o.status with
  | .finished code => if code = 0 then none else some ("exited with code " ++ toString code)
  | .errored message => some message
  | .aborted => some "aborted by job deadline"
  | .skipped _ => none

def decoder : Decoder Outcome := fun reading value => do
  let fields ← Fields.ofValue reading
    ["tool_name", "report_name", "kind", "policy", "status", "output", "duration_ms"] value
  let toolName ← fields.required reading "tool_name" .text
  let reportName ← fields.required reading "report_name" .text
  let kind ← fields.required reading "kind" ToolKind.decoder
  let policy ← fields.required reading "policy" FailurePolicy.decoder
  let status ← fields.required reading "status" ToolStatus.decoder
  let output ← fields.required reading "output" .text
  let durationMs ← fields.required reading "duration_ms" .size
  some { toolName, reportName, kind, policy, status, output, durationMs }

def toValue (o : Outcome) : Value :=
  .table [
    ("tool_name", .text o.toolName),
    ("report_name", .text o.reportName),
    ("kind", o.kind.toValue),
    ("policy", o.policy.toValue),
    ("status", o.status.toValue),
    ("output", .text o.output),
    ("duration_ms", .nat o.durationMs)]

end Outcome

end Premerge
