import Premerge.Log

/-! A filter lets those events through that matter enough. It is a list of rules, each for the
sources that begin with a name; the rule with the longest name that fits decides. -/

namespace Premerge.CommandLine

inductive Threshold where
  | off
  | error
  | warn
  | info
  | debug
  | trace
  deriving DecidableEq, Repr

namespace Threshold

def spellings : List (String × Threshold) :=
  [("off", off), ("error", error), ("warn", warn), ("info", info), ("debug", debug),
    ("trace", trace), ("0", off), ("1", error), ("2", warn), ("3", info), ("4", debug),
    ("5", trace)]

def ofText? (text : String) : Option Threshold :=
  spellings.lookup (String.ofList (text.toList.map Char.toLower))

def rank : Threshold → Nat
  | off => 0
  | error => 1
  | warn => 2
  | info => 3
  | debug => 4
  | trace => 5

def ofSeverity : Severity → Threshold
  | .debug => debug
  | .info => info
  | .warn => warn

def admits (threshold : Threshold) (severity : Severity) : Bool :=
  (ofSeverity severity).rank ≤ threshold.rank

end Threshold

structure FilterRule where
  source : String
  threshold : Threshold
  deriving DecidableEq, Repr

structure LogFilter where
  rules : List FilterRule
  deriving DecidableEq, Repr

namespace LogFilter

def uniform (threshold : Threshold) : LogFilter := ⟨[⟨"", threshold⟩]⟩

def isNameChar (c : Char) : Bool :=
  c.isAlphanum || c == '_' || c == ':' || c == '-' || c.toNat ≥ 128

def rule? (text : String) : Option FilterRule :=
  match Threshold.ofText? text with
  | some threshold => some ⟨"", threshold⟩
  | none =>
    let name := text.toList.takeWhile isNameChar
    if name.isEmpty then none
    else match text.toList.dropWhile isNameChar with
      -- A name alone lets everything through.
      | [] => some ⟨text, .trace⟩
      | ['='] => some ⟨String.ofList name, .trace⟩
      | '=' :: level =>
        (Threshold.ofText? (String.ofList level)).map (FilterRule.mk (String.ofList name))
      | _ => none

def ofText? (text : String) : Option LogFilter :=
  let parts := ((Text.Line.pieces ',' text.toList).filter (!·.isEmpty)).map String.ofList
  if parts.isEmpty then some (uniform .error)
  else (parts.mapM rule?).map LogFilter.mk

/-- The rule of the longest name that the source begins with; of two for one name the later. -/
def ruleFor? (rules : List FilterRule) (source : String) : Option FilterRule :=
  rules.foldl
    (fun best rule =>
      if rule.source.toList.isPrefixOf source.toList then
        match best with
        | none => some rule
        | some old => if old.source.length ≤ rule.source.length then some rule else some old
      else best)
    none

def admits (filter : LogFilter) (event : Event) : Bool :=
  match ruleFor? filter.rules event.source with
  | some rule => rule.threshold.admits event.severity
  | none => false

def variableName : String := "RUST_LOG"

def inForce (description : Option String) (verbose : Bool) : LogFilter :=
  (description.bind ofText?).getD (uniform (if verbose then .debug else .info))

end LogFilter

end Premerge.CommandLine
