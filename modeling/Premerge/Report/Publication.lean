import Premerge.Report.Directory
import Premerge.Report.Summary

namespace Premerge.Report.Summary

open Premerge.World
open Premerge.Text.Utf8 (encode)

variable {σ : Type}

def announce (order : List String) (fragments : List Fragment) (failures : List String) :
    Action σ Summary := do
  for name in unplaced order fragments do
    Action.log (.fragmentUnplaced name)
  pure (compose order fragments failures)

def readAll (d : Directory) : List String → Action σ (List Fragment)
  | [] => pure []
  | name :: rest => do
    let fragment ← d.readFragment name
    pure (fragment.toList ++ (← readAll d rest))

def ofDirectory (order : List String) (d : Directory) (failures : List String) :
    Action σ Summary := do
  announce order (← readAll d (← d.fragmentNames)) failures

def publish (s : Summary) (d : Directory) (shared : Option Path) : Action σ Path := do
  let path ← d.writeSummary s.text
  match shared with
  | some file => Action.changeFiles .system (·.append file (encode s.text))
  | none => pure ()
  Action.log (.summaryPublished s.included.length path)
  pure path

end Premerge.Report.Summary
