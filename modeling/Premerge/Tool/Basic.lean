import Premerge.Data.Record

namespace Premerge

open Premerge.Data

inductive FailurePolicy where
  | advisory
  | fatal
  deriving DecidableEq, Repr, Inhabited

namespace FailurePolicy

def name : FailurePolicy → String
  | .advisory => "advisory"
  | .fatal => "fatal"

def decoder : Decoder FailurePolicy :=
  Decoder.member ([advisory, fatal].map fun p => (p.name, p))

def toValue (p : FailurePolicy) : Value := .text p.name

end FailurePolicy

inductive ToolKind where
  | generic
  | testRunner
  | migrationCheck
  deriving DecidableEq, Repr, Inhabited

namespace ToolKind

def name : ToolKind → String
  | .generic => "generic"
  | .testRunner => "test_runner"
  | .migrationCheck => "migration_check"

def all : List ToolKind := [generic, testRunner, migrationCheck]

def decoder : Decoder ToolKind :=
  Decoder.member (all.map fun k => (k.name, k))

def toValue (k : ToolKind) : Value := .text k.name

end ToolKind

structure Tool where
  name : String
  gate : Option String
  command : List String
  filesFrom : Option String
  policy : FailurePolicy
  kind : ToolKind
  ownReportName : Option String
  /-- The seconds the tool may take; zero sets no limit. -/
  timeoutSecs : Nat
  env : NameMap String
  enabled : Bool
  deriving DecidableEq, Repr, Inhabited

namespace Tool

def ofCommand (name : String) (command : List String) : Tool where
  name
  gate := none
  command
  filesFrom := none
  policy := .advisory
  kind := .generic
  ownReportName := none
  timeoutSecs := 0
  env := .empty
  enabled := true

def gatedOn (tool : Tool) (predicate : String) : Tool := { tool with gate := some predicate }

def withFilesFrom (tool : Tool) (predicate : String) : Tool :=
  { tool with filesFrom := some predicate }

def fatal (tool : Tool) : Tool := { tool with policy := .fatal }

def withKind (tool : Tool) (kind : ToolKind) : Tool := { tool with kind }

def withReportName (tool : Tool) (name : String) : Tool := { tool with ownReportName := some name }

def withTimeout (tool : Tool) (seconds : Nat) : Tool := { tool with timeoutSecs := seconds }

def withVariable (tool : Tool) (name value : String) : Tool :=
  { tool with env := tool.env.insert name value }

def disabled (tool : Tool) : Tool := { tool with enabled := false }

def reportName (tool : Tool) : String :=
  tool.ownReportName.getD tool.name

/-- The policy in force: a check of migrations is fatal whatever it is set to. -/
def effectivePolicy (tool : Tool) : FailurePolicy :=
  if tool.kind = .migrationCheck then .fatal else tool.policy

def isFatal (tool : Tool) : Bool :=
  tool.effectivePolicy == .fatal

def fieldNames : List String :=
  ["name", "gate", "command", "files_from", "policy", "kind", "report_name", "timeout_secs",
    "env", "enabled"]

def decoder : Decoder Tool := fun reading value => do
  let fields ← Fields.ofValue reading fieldNames value
  let name ← fields.required reading "name" .text
  let gate ← fields.withDefault reading "gate" none (.optional .text)
  let command ← fields.required reading "command" (.list .text)
  let filesFrom ← fields.withDefault reading "files_from" none (.optional .text)
  let policy ← fields.withDefault reading "policy" .advisory FailurePolicy.decoder
  let kind ← fields.withDefault reading "kind" .generic ToolKind.decoder
  let ownReportName ← fields.withDefault reading "report_name" none (.optional .text)
  let timeoutSecs ← fields.withDefault reading "timeout_secs" 0 .size
  let env ← fields.withDefault reading "env" .empty (.nameMap .text)
  let enabled ← fields.withDefault reading "enabled" true .bool
  some { name, gate, command, filesFrom, policy, kind, ownReportName, timeoutSecs, env, enabled }

def toValue (tool : Tool) : Value :=
  .table [
    ("name", .text tool.name),
    ("gate", .optional .text tool.gate),
    ("command", .texts tool.command),
    ("files_from", .optional .text tool.filesFrom),
    ("policy", tool.policy.toValue),
    ("kind", tool.kind.toValue),
    ("report_name", .optional .text tool.ownReportName),
    ("timeout_secs", .nat tool.timeoutSecs),
    ("env", .table (tool.env.entries.map fun (name, value) => (name, .text value))),
    ("enabled", .bool tool.enabled)]

end Tool

end Premerge
