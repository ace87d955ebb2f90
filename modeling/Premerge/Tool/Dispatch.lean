import Premerge.Change.Classification
import Premerge.Tool.Basic

namespace Premerge

open Premerge.Change (ChangeSet)

inductive Dispatch where
  | run (words : List String)
  | skip (reason : String)
  deriving DecidableEq, Repr

namespace Tool

def filesPlaceholder : String := "\x7bfiles\x7d"

def substitute (files : List String) : List String → List String
  | [] => []
  | word :: rest =>
    if word = filesPlaceholder then files ++ substitute files rest
    else word :: substitute files rest

/-- The command with the files: in the places for them, or at the end if there is no such place
and the tool is given files. -/
def render (tool : Tool) (files : List String) : List String :=
  let words := substitute files tool.command
  if filesPlaceholder ∉ tool.command ∧ tool.filesFrom.isSome then words ++ files else words

def disabledReason : String := "disabled"

def gateReason (predicate : String) : String := "predicate " ++ predicate ++ " is false"

def noFilesReason (predicate : String) : String := "no files match predicate " ++ predicate

def dispatchFiles (tool : Tool) (changes : ChangeSet) : Dispatch :=
  match tool.filesFrom with
  | none => .run (tool.render [])
  | some source =>
    match changes.filesFor source with
    | [] => .skip (noFilesReason source)
    | files => .run (tool.render files)

def dispatch (tool : Tool) (changes : ChangeSet) : Dispatch :=
  if !tool.enabled then .skip disabledReason
  else match tool.gate with
    | none => tool.dispatchFiles changes
    | some gate =>
      if changes.holds gate then tool.dispatchFiles changes else .skip (gateReason gate)

end Tool

end Premerge
