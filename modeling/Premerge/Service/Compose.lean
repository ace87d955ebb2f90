import Premerge.Service.Runtime
import Premerge.Text.Blank

namespace Premerge

open Premerge.Data Premerge.World
open Premerge.Text.Utf8 (decode)

variable {σ : Type}

structure Composition where
  file : Option Path
  project : Option String
  directory : Option Path
  deriving DecidableEq, Repr

namespace Composition

def command (c : Composition) (arguments : List String) : Command where
  program := "docker"
  arguments := "compose" ::
    ((match c.file with
      | some file => ["-f", file]
      | none => [])
    ++ (match c.project with
      | some project => ["-p", project]
      | none => [])
    ++ arguments)
  environment := .empty
  directory := c.directory

def call (c : Composition) (arguments : List String) (w : World σ) :
    Except SystemError Behaviour × World σ :=
  (w.log (.composeCalled arguments)).start (c.command arguments)

theorem extends_call (c : Composition) (arguments : List String) (w : World σ) :
    w.Extends (·.isOfRuntime) (c.call arguments w).2 := by
  have hlog : w.Extends (·.isOfRuntime) (w.log (.composeCalled arguments)) := w.extends_note rfl
  exact hlog.trans (World.extends_start _ _ rfl)

def replyOf {α : Type} (read : Behaviour → Except Failure α) :
    Except SystemError Behaviour → Reply α
  | .error e => .now (.error (.service (.notStarted e)))
  | .ok behaviour =>
    match behaviour.duration with
    | some ms => .later ms (read behaviour)
    | none => .never

def complaint (behaviour : Behaviour) : String :=
  Text.trim (decode (behaviour.written .errors))

def readUp (service : Service) (behaviour : Behaviour) : Except Failure Unit :=
  if behaviour.succeeds then .ok ()
  else .error (.service (.upFailed service.name (complaint behaviour)))

def checkArguments (service : Service) : List String :=
  if service.probe.isEmpty then ["ps", "--status", "running", "-q", service.name]
  else ["exec", "-T", service.name] ++ service.probe

def readCheck (service : Service) (behaviour : Behaviour) : Except Failure Bool :=
  if service.probe.isEmpty then
    .ok (behaviour.succeeds && !(Text.trim (decode (behaviour.written .output))).isEmpty)
  else .ok behaviour.succeeds

def runtime (c : Composition) : Runtime σ where
  up service w :=
    let (result, w) := c.call ["up", "-d", service.name] w
    (replyOf (readUp service) result, w)
  check service w :=
    let (result, w) := c.call (checkArguments service) w
    (replyOf (readCheck service) result, w)
  down names := do
    if names.isEmpty then return
    let (result, w) := c.call (["rm", "--stop", "--force", "--volumes"] ++ names) (← get)
    match result with
    | .error e =>
      set w
      throw (.service (.notStarted e))
    | .ok behaviour =>
      set (w.await behaviour)
      if !behaviour.succeeds then throw (.service (.downFailed (complaint behaviour)))
  up_extends service w := c.extends_call _ w
  check_extends service w := c.extends_call _ w
  down_notes names w := by
    have hcall := c.extends_call (["rm", "--stop", "--force", "--volumes"] ++ names) w
    cases names.isEmpty with
    | true => exact .refl _ w
    | false =>
      simp only [Bool.false_eq_true, if_false, Action.perform_bind, Action.perform_get]
      split
      · simpa only [Action.perform_bind, Action.perform_set, Action.perform_throw] using hcall
      · simp only [Action.perform_bind, Action.perform_set]
        split <;> exact hcall.trans (.of_past rfl)

end Composition

end Premerge
