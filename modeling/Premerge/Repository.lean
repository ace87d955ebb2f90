import Premerge.Change.NameStatus
import Premerge.Text.Blank
import Premerge.World.Basic

namespace Premerge.Repository

open Premerge.World (Path)
open Premerge.Text.Utf8 (Octets decode)

variable {σ : Type}

def command (repository : Path) (arguments : List String) : Command :=
  ⟨"git", arguments, .empty, some repository⟩

def ask (repository : Path) (arguments : List String) : Action σ Octets := do
  let behaviour ← Action.runCommand (fun e => .git (.notStarted e)) (command repository arguments)
  if behaviour.succeeds then pure (behaviour.written .output)
  else throw (.git (.failed arguments (Text.trim (decode (behaviour.written .errors)))))

def commitOf (repository : Path) (revision : String) : Action σ String := do
  let output ← ask repository ["rev-parse", "--verify", revision ++ "^\x7bcommit\x7d"]
  let sha := Text.trim (decode output)
  if sha.isEmpty then throw (.git (.noRevision revision)) else pure sha

def headRevision : String := "HEAD"

def mergeBase (repository : Path) (base head : String) : Action σ String := do
  pure (Text.trim (decode (← ask repository ["merge-base", base, head])))

def messageOf (repository : Path) (revision : String) : Action σ String := do
  pure (decode (← ask repository ["log", "--format=%B", "-n", "1", revision]))

def changedFiles (repository : Path) (base head : String) : Action σ (List Change.File) := do
  let origin ← mergeBase repository base head
  let output ← ask repository ["diff", "--name-status", "-z", "-M", origin, head]
  Action.ofExcept (Change.NameStatus.read (decode output))

def isWorkingTree (directory : Path) (w : World σ) : Bool × World σ :=
  match w.start (command directory ["rev-parse", "--is-inside-work-tree"]) with
  | (.ok behaviour, w) => (behaviour.succeeds, w.await behaviour)
  | (.error _, w) => (false, w)

end Premerge.Repository
