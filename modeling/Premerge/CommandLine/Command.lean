import Premerge.CommandLine.Options
import Premerge.Job.Report

namespace Premerge.CommandLine

open Premerge.Data
open Premerge.World (Path)

inductive Command where
  | run (request : Request) (config : Option Path) (asData : Bool)
  | checkCommit (repository : Path) (head : String) (config : Option Path) (limit : Option Nat)
  | classify (repository : Path) (base head : String) (config : Option Path)
  | normalize (tool : String) (input : Path) (kind : String)
  | summarize (repository reports : Path) (config : Option Path) (write : Bool)
  deriving DecidableEq, Repr

structure Invocation where
  command : Command
  verbose : Bool
  logAsData : Bool
  deriving DecidableEq, Repr

inductive CommandName where
  | run
  | checkCommit
  | classify
  | normalize
  | summarize
  deriving DecidableEq, Repr

namespace CommandName

def word : CommandName → String
  | run => "run"
  | checkCommit => "check-commit"
  | classify => "classify"
  | normalize => "normalize"
  | summarize => "summarize"

def all : List CommandName := [run, checkCommit, classify, normalize, summarize]

def ofWord? (word : String) : Option CommandName :=
  all.find? (·.word == word)

def repositoryRule : OptionRule := ⟨"repo", .path, some "PRGATE_REPO"⟩

def baseRule : OptionRule := ⟨"base", .text, some "PRGATE_BASE"⟩

def headRule : OptionRule := ⟨"head", .text, some "PRGATE_HEAD"⟩

def configRule : OptionRule := ⟨"config", .path, some "PRGATE_CONFIG"⟩

def reportsRule : OptionRule := ⟨"report-dir", .path, some "PRGATE_REPORT_DIR"⟩

def rules : CommandName → List OptionRule
  | run => [repositoryRule, baseRule, headRule, ⟨"pr", .text, some "PRGATE_PR"⟩, configRule,
      reportsRule, ⟨"step-summary", .path, some "GITHUB_STEP_SUMMARY"⟩]
  | checkCommit => [repositoryRule, headRule, configRule, ⟨"max-line-length", .size, none⟩]
  | classify => [repositoryRule, baseRule, headRule, configRule]
  | normalize => [⟨"tool", .text, none⟩, ⟨"input", .path, none⟩, ⟨"kind", .text, none⟩]
  | summarize => [repositoryRule, reportsRule, configRule]

def flags : CommandName → List String
  | run => ["json-report"]
  | summarize => ["write"]
  | _ => []

def command? (name : CommandName) (values : NameMap String) (flags : List String) :
    Option Command :=
  let value (name default : String) : String := (values.find? name).getD default
  let repository := value "repo" "."
  let base := value "base" "main"
  let head := value "head" "HEAD"
  let reports := value "report-dir" "reports"
  let config := values.find? "config"
  match name with
  | run => some (.run {
      repository
      base
      head
      pr := values.find? "pr"
      reports
      sharedSummary := values.find? "step-summary" } config (flags.contains "json-report"))
  | checkCommit =>
    some (.checkCommit repository head config ((values.find? "max-line-length").bind sizeOf?))
  | classify => some (.classify repository base head config)
  | normalize => do
    some (.normalize (← values.find? "tool") (← values.find? "input") (value "kind" "generic"))
  | summarize => some (.summarize repository reports config (flags.contains "write"))

end CommandName

def verboseFlag : String := "verbose"

def dataFlag : String := "json"

def generalGrammar : Grammar where
  valued := []
  flags := [verboseFlag, dataFlag]
  letters := [('v', verboseFlag)]
  hasVersion := true

def CommandName.grammar (name : CommandName) : Grammar :=
  { generalGrammar with
    valued := name.rules
    flags := generalGrammar.flags ++ name.flags
    hasVersion := false }

def helpWord : String := "help"

def helpStop : List String → Stop
  | [] => .help
  | [word] => if word = helpWord ∨ (CommandName.ofWord? word).isSome then .help else .misuse
  | _ => .misuse

namespace Invocation

def ofWords (environment : NameMap String) (words : List String) : Except Stop Invocation :=
  match generalGrammar.scan .empty words with
  | .error stop => .error stop
  | .ok (_, []) => .error .misuse
  | .ok (general, word :: rest) =>
    if word = helpWord then .error (helpStop rest)
    else match CommandName.ofWord? word with
      | none => .error .misuse
      | some name =>
        match name.grammar.scan .empty rest with
        | .error stop => .error stop
        | .ok (_, _ :: _) => .error .misuse
        | .ok (given, []) =>
          match Grammar.complete environment given name.rules with
          | .error stop => .error stop
          | .ok values =>
            match name.command? values given.flags with
            | none => .error .misuse
            | some command =>
              let flags := general.flags ++ given.flags
              .ok ⟨command, flags.contains verboseFlag, flags.contains dataFlag⟩

end Invocation

end Premerge.CommandLine
