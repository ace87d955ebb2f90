import Premerge.Service.Runtime

namespace Premerge

open Premerge.Data

inductive Line where
  | yes
  | no
  | fault (text : String)
  | silence
  deriving DecidableEq, Repr

structure Part where
  up : Line
  /-- The answers to the checks; the last one is repeated, and without any the service is ready. -/
  checks : List Line

structure ScriptedServices where
  parts : List (String × Part)
  down : Line
  ups : List String
  checks : NameMap Nat
  downs : List (List String)

namespace Line

def reply {α : Type} (yes no : α) : Line → Reply α
  | .yes => .now (.ok yes)
  | .no => .now (.ok no)
  | .fault text => .now (.error (.service (.other text)))
  | .silence => .never

end Line

def Part.answer (part : Part) (number : Nat) : Line :=
  (part.checks[number]?).getD (part.checks.getLastD .yes)

namespace ScriptedServices

def fresh (parts : List (String × Part)) (down : Line) : ScriptedServices where
  parts
  down
  ups := []
  checks := .empty
  downs := []

def part (s : ScriptedServices) (name : String) : Part :=
  (s.parts.lookup name).getD ⟨.yes, []⟩

def runtime : Runtime ScriptedServices where
  up service w :=
    ((w.services.part service.name).up.reply () (),
      { w with services := { w.services with ups := w.services.ups ++ [service.name] } })
  check service w :=
    let count := (w.services.checks.find? service.name).getD 0
    (((w.services.part service.name).answer count).reply true false,
      { w with services :=
        { w.services with checks := w.services.checks.insert service.name (count + 1) } })
  down names := do
    let w ← get
    set { w with services := { w.services with downs := w.services.downs ++ [names] } }
    match w.services.down with
    | .fault text => throw (.service (.other text))
    | _ => pure ()
  up_extends _ _ := .of_past rfl
  check_extends _ _ := .of_past rfl
  down_notes names w := by
    refine .of_past ?_
    simp only [Action.perform_bind, Action.perform_get, Action.perform_set]
    split <;> rfl

end ScriptedServices

end Premerge
