import Premerge.Service.Basic
import Premerge.Tool.Stock

namespace Premerge

open Premerge.Data Premerge.Change
open Premerge.World (Path)

structure CommitConfig where
  maxLineLength : Nat
  deriving DecidableEq, Repr

structure ServicesConfig where
  composeFile : Option Path
  projectName : Option String
  startupTimeoutSecs : Nat
  pollIntervalMs : Nat
  required : List Service
  deriving DecidableEq, Repr

structure Config where
  /-- The seconds that all tools together may take. -/
  jobTimeoutSecs : Nat
  parallelTools : Bool
  ownSummaryOrder : Option (List String)
  commit : CommitConfig
  predicates : List PredicateSpec
  services : ServicesConfig
  tools : List Tool
  deriving DecidableEq, Repr

namespace CommitConfig

def standard : CommitConfig := ⟨CommitMessage.defaultLimit⟩

def decoder : Decoder CommitConfig := fun reading value => do
  let fields ← Fields.ofValue reading ["max_line_length"] value
  some ⟨← fields.withDefault reading "max_line_length" standard.maxLineLength .size⟩

def toValue (c : CommitConfig) : Value :=
  .table [("max_line_length", .nat c.maxLineLength)]

end CommitConfig

namespace ServicesConfig

def standard : ServicesConfig where
  composeFile := none
  projectName := none
  startupTimeoutSecs := 120
  pollIntervalMs := 1000
  required := [⟨"db", ["pg_isready", "-U", "postgres"]⟩, ⟨"sign_node", []⟩]

def startupTimeoutMs (c : ServicesConfig) : Nat :=
  c.startupTimeoutSecs * 1000

def names (c : ServicesConfig) : List String :=
  c.required.map Service.name

def decoder : Decoder ServicesConfig := fun reading value => do
  let fields ← Fields.ofValue reading
    ["compose_file", "project_name", "startup_timeout_secs", "poll_interval_ms", "required"] value
  let composeFile ← fields.withDefault reading "compose_file" none (.optional .text)
  let projectName ← fields.withDefault reading "project_name" none (.optional .text)
  let startupTimeoutSecs ←
    fields.withDefault reading "startup_timeout_secs" standard.startupTimeoutSecs .size
  let pollIntervalMs ← fields.withDefault reading "poll_interval_ms" standard.pollIntervalMs .size
  let required ← fields.withDefault reading "required" standard.required (.list Service.decoder)
  some { composeFile, projectName, startupTimeoutSecs, pollIntervalMs, required }

def toValue (c : ServicesConfig) : Value :=
  .table [
    ("compose_file", .optional .text c.composeFile),
    ("project_name", .optional .text c.projectName),
    ("startup_timeout_secs", .nat c.startupTimeoutSecs),
    ("poll_interval_ms", .nat c.pollIntervalMs),
    ("required", .list (c.required.map Service.toValue))]

end ServicesConfig

namespace Config

def standardPredicates : List PredicateSpec :=
  [⟨StockTool.pythonPredicate, ["**/*.py"], true⟩, ⟨StockTool.corePredicate, ["alws/**/*.py"], true⟩]

def standard : Config where
  jobTimeoutSecs := 3600
  parallelTools := false
  ownSummaryOrder := none
  commit := .standard
  predicates := standardPredicates
  services := .standard
  tools := StockTool.all.map StockTool.tool

def jobTimeoutMs (c : Config) : Nat :=
  c.jobTimeoutSecs * 1000

def decoder : Decoder Config := fun reading value => do
  let fields ← Fields.ofValue reading ["job_timeout_secs", "parallel_tools", "summary_order",
    "commit", "predicates", "services", "tools"] value
  let jobTimeoutSecs ← fields.withDefault reading "job_timeout_secs" standard.jobTimeoutSecs .size
  let parallelTools ← fields.withDefault reading "parallel_tools" standard.parallelTools .bool
  let ownSummaryOrder ←
    fields.withDefault reading "summary_order" none (.optional (.list .text))
  let commit ← fields.withDefault reading "commit" .standard CommitConfig.decoder
  let predicates ←
    fields.withDefault reading "predicates" standard.predicates (.list PredicateSpec.decoder)
  let services ← fields.withDefault reading "services" .standard ServicesConfig.decoder
  let tools ← fields.withDefault reading "tools" standard.tools (.list Tool.decoder)
  some { jobTimeoutSecs, parallelTools, ownSummaryOrder, commit, predicates, services, tools }

def entries (c : Config) : List (String × Value) :=
  [("job_timeout_secs", .nat c.jobTimeoutSecs), ("parallel_tools", .bool c.parallelTools)]
    ++ (match c.ownSummaryOrder with
      | some order => [("summary_order", .texts order)]
      | none => [])
    ++ [("commit", c.commit.toValue),
      ("predicates", .list (c.predicates.map PredicateSpec.toValue)),
      ("services", c.services.toValue),
      ("tools", .list (c.tools.map Tool.toValue))]

def toValue (c : Config) : Value :=
  .table c.entries

end Config

end Premerge
