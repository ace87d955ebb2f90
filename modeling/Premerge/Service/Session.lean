import Premerge.Service.Startup

/-! A session is a set of services that are ready. It begins only when all of them are, and ends
when they are taken down; if a start fails, they are taken down at once. -/

namespace Premerge

variable {σ : Type}

structure Session where
  names : List String
  deriving DecidableEq, Repr

namespace Session

def handles (s : Session) : List ServiceHandle :=
  s.names.map fun name => ⟨name, .ready⟩

def findAll (known : List Service) : List String → Except Failure (List Service)
  | [] => .ok []
  | name :: rest =>
    match known.find? (·.name == name) with
    | none => .error (.config (.unknownService name))
    | some service =>
      match findAll known rest with
      | .ok services => .ok (service :: services)
      | .error e => .error e

def takeDown (runtime : Runtime σ) (names : List String) : Action σ Unit := do
  modify (·.note (.downAsked names))
  runtime.down names

def clearUp (runtime : Runtime σ) (names : List String) : Action σ Unit := do
  match ← Action.attempt (takeDown runtime names) with
  | .ok () => pure ()
  | .error e => Action.log (.startTeardownFailed e)
  Action.log (.servicesStopped names)

def start (runtime : Runtime σ) (patience : Patience) (known : List Service)
    (names : List String) : Action σ Session := do
  let services ← Action.ofExcept (findAll known names)
  let (results, w) := Startup.all runtime patience services (← get)
  set w
  match Startup.failure? results with
  | some e =>
    clearUp runtime names
    throw e
  | none => pure ⟨names⟩

def stop (runtime : Runtime σ) (s : Session) : Action σ Unit := do
  let result ← Action.attempt (takeDown runtime s.names)
  Action.log (.servicesStopped s.names)
  Action.ofExcept result

def abandon (s : Session) (w : World σ) : World σ :=
  if s.names.isEmpty then w else w.log (.servicesLeft s.names)

end Session

end Premerge
