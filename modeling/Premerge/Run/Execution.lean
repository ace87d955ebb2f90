import Premerge.Report.Directory
import Premerge.Run.Outcome
import Premerge.Tool.Dispatch

/-! Tools run one after the other or all at once, each with its output in the raw report of its
name. A tool may have a limit of its own; the deadline of the job ends whatever runs when it is
reached. -/

namespace Premerge

open Premerge.Change (ChangeSet)
open Premerge.Report (Directory)
open Premerge.Text.Utf8 (Octets)
open Premerge.World

variable {σ : Type}

structure Workplace where
  reports : Directory
  directory : Path
  changes : ChangeSet

structure Process where
  tool : Tool
  behaviour : Behaviour
  began : Nat

namespace Process

def limit? (p : Process) : Option Nat :=
  if p.tool.timeoutSecs = 0 then none else some (p.tool.timeoutSecs * 1000)

def isTooLong (p : Process) : Bool :=
  match p.behaviour.duration, p.limit? with
  | some duration, some limit => limit < duration
  | none, some _ => true
  | _, none => false

/-- The time that passes until the program is over. One that is killed has to be waited for. -/
def span? (p : Process) : Option Nat :=
  if p.isTooLong then p.limit?.map (· + p.behaviour.dying) else p.behaviour.duration

def writtenBy (p : Process) (time : Nat) : Octets :=
  match p.limit? with
  | some limit => p.behaviour.writtenBy (min (time - p.began) limit)
  | none => p.behaviour.writtenBy (time - p.began)

def end? (p : Process) : Option Nat :=
  p.span?.map (p.began + ·)

def endBefore? (deadline : Option Nat) (p : Process) : Option Nat :=
  match p.end?, deadline with
  | some time, some deadline => if time < deadline then some time else none
  | some time, none => some time
  | none, _ => none

end Process

inductive Launch where
  | over (outcome : Outcome)
  | running (process : Process)

namespace Workplace

def rawOutput (p : Workplace) (tool : Tool) (w : World σ) : String :=
  match Directory.textAt? w.files (p.reports.rawPath tool.reportName) with
  | .ok (some text) => text
  | _ => ""

def fail (p : Workplace) (tool : Tool) (began : Nat) (failure : Failure) (w : World σ) :
    Outcome × World σ :=
  ({ Outcome.ofTool tool (.errored failure.message) with
      output := p.rawOutput tool w
      durationMs := w.now - began },
    w.log (.toolErrored tool.name failure))

def startFault (program : String) (cause : SystemError) : String :=
  "failed to spawn " ++ program ++ ": " ++ cause.message

def startProgram (p : Workplace) (tool : Tool) (w : World σ) :
    List String → Except Failure Behaviour × World σ
  | [] => (.error (.config (.emptyCommand tool.name)), w)
  | program :: arguments =>
    -- The report is there even if the program does not start.
    match w.files.write (p.reports.rawPath tool.reportName) [] with
    | .error e => (.error (.system e), w)
    | .ok files =>
      match World.start { w with files } ⟨program, arguments, tool.env, some p.directory⟩ with
      | (.error e, w) => (.error (.tool tool.name (startFault program e)), w)
      | (.ok behaviour, w) => (.ok behaviour, w.note (.toolStarted tool.name))

def launch (p : Workplace) (tool : Tool) (w : World σ) : Launch × World σ :=
  match tool.dispatch p.changes with
  | .skip reason => (.over (.skipped tool reason), w.log (.toolSkipped tool.name reason))
  | .run words =>
    match p.startProgram tool w words with
    | (.ok behaviour, w) => (.running ⟨tool, behaviour, w.now⟩, w)
    | (.error e, w) =>
      let (outcome, w) := p.fail tool w.now e w
      (.over outcome, w)

/-- Puts into the raw report what the program has written by now, which is where it ends. -/
def close (p : Workplace) (process : Process) (w : World σ) : World σ :=
  match w.files.write (p.reports.rawPath process.tool.reportName) (process.writtenBy w.now) with
  | .ok files => { w with files }.note (.toolEnded process.tool.name)
  | .error _ => w.note (.toolEnded process.tool.name)

def limitFault (tool : Tool) : String :=
  "timed out after " ++ toString tool.timeoutSecs ++ " seconds"

/-- The exit status of a program that a signal ended. -/
def noExitCode : Int := -1

def finish (p : Workplace) (process : Process) (time : Nat) (w : World σ) : Outcome × World σ :=
  let w := p.close process { w with now := time }
  let tool := process.tool
  if process.isTooLong then p.fail tool process.began (.tool tool.name (limitFault tool)) w
  else
    let code := process.behaviour.exitCode?.getD noExitCode
    let durationMs := w.now - process.began
    ({ Outcome.ofTool tool (.finished code) with output := p.rawOutput tool w, durationMs },
      w.log (.toolFinished tool.name code durationMs tool.isFatal))

def cutOff (p : Workplace) (tool : Tool) (w : World σ) : Outcome :=
  .aborted tool (p.rawOutput tool w)

structure Results where
  outcomes : List Outcome
  deadlineExceeded : Bool
  deriving DecidableEq, Repr

def runInTurn (p : Workplace) (deadline : Option Nat) :
    List Tool → World σ → Results × World σ
  | [], w => (⟨[], false⟩, w)
  | tool :: rest, w =>
    match p.launch tool w with
    | (.over outcome, w) =>
      let (results, w) := p.runInTurn deadline rest w
      ({ results with outcomes := outcome :: results.outcomes }, w)
    | (.running process, w) =>
      match process.endBefore? deadline with
      | some time =>
        let (outcome, w) := p.finish process time w
        let (results, w) := p.runInTurn deadline rest w
        ({ results with outcomes := outcome :: results.outcomes }, w)
      -- The tools behind this one are cut off before they have begun.
      | none =>
        let w := p.close process { w with now := deadline.getD w.now }
        (⟨(tool :: rest).map (p.cutOff · w), true⟩, w)

def launchAll (p : Workplace) : List Tool → World σ → List Launch × World σ
  | [], w => ([], w)
  | tool :: rest, w =>
    let (launch, w) := p.launch tool w
    let (launches, w) := p.launchAll rest w
    (launch :: launches, w)

def running : Nat → List Launch → List (Nat × Process)
  | _, [] => []
  | place, .over _ :: rest => running (place + 1) rest
  | place, .running process :: rest => (place, process) :: running (place + 1) rest

def ending (deadline : Option Nat) (processes : List (Nat × Process)) :
    List (Nat × Nat × Process) :=
  (processes.filterMap fun (place, process) =>
    (process.endBefore? deadline).map fun time => (time, place, process)).mergeSort
      fun a b => a.1 ≤ b.1

def finishAll (p : Workplace) :
    List (Nat × Nat × Process) → World σ → List (Nat × Outcome) × World σ
  | [], w => ([], w)
  | (time, place, process) :: rest, w =>
    let (outcome, w) := p.finish process time w
    let (outcomes, w) := p.finishAll rest w
    ((place, outcome) :: outcomes, w)

def closeAll (p : Workplace) (processes : List Process) (w : World σ) : World σ :=
  processes.foldl (fun w process => p.close process w) w

def collect (p : Workplace) (finished : List (Nat × Outcome)) (w : World σ) :
    Nat → List Launch → List Outcome
  | _, [] => []
  | place, .over outcome :: rest => outcome :: p.collect finished w (place + 1) rest
  | place, .running process :: rest =>
    (finished.lookup place).getD (p.cutOff process.tool w)
      :: p.collect finished w (place + 1) rest

def runTogether (p : Workplace) (deadline : Option Nat) (tools : List Tool) (w : World σ) :
    Results × World σ :=
  let (launches, w) := p.launchAll tools w
  let processes := running 0 launches
  let late := (processes.map Prod.snd).filter fun process =>
    (process.endBefore? deadline).isNone
  let (finished, w) := p.finishAll (ending deadline processes) w
  -- If nothing is late, the run ends with its last process and not at the deadline.
  let w := if late.isEmpty then w else p.closeAll late { w with now := deadline.getD w.now }
  (⟨p.collect finished w 0 launches, !late.isEmpty⟩, w)

def runTools (p : Workplace) (together : Bool) (deadline : Option Nat) (tools : List Tool)
    (w : World σ) : Results × World σ :=
  if together then p.runTogether deadline tools w else p.runInTurn deadline tools w

end Workplace

end Premerge
