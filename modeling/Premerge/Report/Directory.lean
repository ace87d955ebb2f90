import Premerge.Report.Fragment
import Premerge.World.Basic

namespace Premerge.Report

open Premerge.World
open Premerge.Text.Utf8 (encode decode)

variable {σ : Type}

structure Directory where
  path : Path
  deriving DecidableEq, Repr

namespace Directory

def environmentFile : String := "environment.txt"

def summaryFile : String := "summary.md"

def rawSuffix : String := "-report.txt"

def fragmentSuffix : String := "-report.md"

def rawPath (d : Directory) (report : String) : Path :=
  Path.join d.path (report ++ rawSuffix)

def fragmentPath (d : Directory) (fragment : String) : Path :=
  Path.join d.path (fragment ++ fragmentSuffix)

def summaryPath (d : Directory) : Path :=
  Path.join d.path summaryFile

def environmentPath (d : Directory) : Path :=
  Path.join d.path environmentFile

/-- Makes the directory of a new job. One that holds something already is refused. -/
def create (path : Path) : Action σ Directory := do
  if (← get).files.pathExists path then
    let names ← Action.lookAtFiles (fun e => .report (.unreadable path e)) (·.list path)
    if !names.isEmpty then throw (.report (.notEmpty path))
  -- Directories on the way stay, even if this one cannot be made.
  let (made, files) := (← get).files.makeChain path.ancestors
  modify ({ · with files })
  match made with
  | .ok () => pure ⟨path⟩
  | .error e => throw (.report (.notCreated path e))

def open? (path : Path) : Action σ Directory := do
  if (← get).files.isDirectory path then pure ⟨path⟩
  else throw (.report (.notADirectory path))

def textAt? (files : FileTree) (path : Path) : Except SystemError (Option String) :=
  match files.read path with
  | .ok octets => .ok (some (decode octets))
  | .error .notFound => .ok none
  | .error e => .error e

def readRaw (d : Directory) (report : String) : Action σ (Option String) :=
  Action.lookAtFiles .system (textAt? · (d.rawPath report))

def writeFragment (d : Directory) (fragment : Fragment) : Action σ Path := do
  let path := d.fragmentPath fragment.name
  Action.changeFiles .system (·.write path (encode fragment.body))
  pure path

def readFragment (d : Directory) (name : String) : Action σ (Option Fragment) := do
  let text ← Action.lookAtFiles .system (textAt? · (d.fragmentPath name))
  pure (text.map fun body => ⟨name, body⟩)

def fragmentOfFile? (file : String) : Option String :=
  if fragmentSuffix.toList.isSuffixOf file.toList then
    some (String.ofList (file.toList.take (file.length - fragmentSuffix.length)))
  else none

def sorted (texts : List String) : List String :=
  texts.mergeSort (fun a b => a ≤ b)

def fragmentNames (d : Directory) : Action σ (List String) := do
  let files ← Action.lookAtFiles .system (·.list d.path)
  pure (sorted (files.filterMap fragmentOfFile?))

def environmentLine (entry : String × String) : String :=
  entry.1 ++ "=" ++ Text.Line.joined entry.2 ++ "\n"

def environmentText (entries : List (String × String)) : String :=
  String.join (entries.map environmentLine)

def writeEnvironment (d : Directory) (entries : List (String × String)) : Action σ Path := do
  Action.changeFiles .system (·.write d.environmentPath (encode (environmentText entries)))
  pure d.environmentPath

def writeSummary (d : Directory) (text : String) : Action σ Path := do
  Action.changeFiles (fun e => .report (.unwritable d.summaryPath e))
    (·.writeNew d.summaryPath (encode text))
  pure d.summaryPath

end Directory

end Premerge.Report
