import Premerge.Data.Timestamp
import Premerge.Log
import Premerge.Service.Basic
import Premerge.World.Program

/-! All that a job can see and change: files, programs, time, chance, and the runtime of the
services, whose state is of the type `σ`. What happens is kept with its time, the latest first, so
that the order of any two steps of a job can be told afterwards. -/

namespace Premerge

open Premerge.Data Premerge.World
open Premerge.Text.Utf8 (Octets)

inductive Happening where
  | logged (event : Event)
  | called (words : List String)
  | upAsked (service : Service)
  | upGranted (service : Service)
  | checkAsked (service : Service)
  | checkPassed (service : Service)
  | downAsked (services : List String)
  | toolStarted (tool : String)
  | toolEnded (tool : String)
  deriving DecidableEq, Repr

def Happening.isOfRuntime : Happening → Bool
  | .called _ | .logged (.composeCalled _) => true
  | _ => false

structure Moment where
  time : Nat
  what : Happening
  deriving DecidableEq, Repr

structure World (σ : Type) where
  files : FileTree
  programs : Programs
  environment : NameMap String
  now : Nat
  epoch : Timestamp
  draws : Nat → Nat
  drawn : Nat
  /-- How long a command that never ends is waited for, until someone outside of the job ends it. -/
  givenUpAfter : Nat
  /-- How often a service can be checked while the clock stands, with no pause from one check to the
  next. This is up to the speed of the machine. -/
  checksAtOnce : Nat
  /-- What has happened, the latest first. -/
  past : List Moment
  services : σ

/-- What a job does: it changes the world, and gives a result or fails. -/
abbrev Action (σ : Type) := ExceptT Failure (StateM (World σ))

namespace World

variable {σ : Type}

def note (w : World σ) (what : Happening) : World σ :=
  { w with past := ⟨w.now, what⟩ :: w.past }

def log (w : World σ) (event : Event) : World σ :=
  w.note (.logged event)

def history (w : World σ) : List Moment :=
  w.past.reverse

def Extends (allowed : Happening → Prop) (earlier later : World σ) : Prop :=
  ∃ news, later.past = news ++ earlier.past ∧ ∀ moment ∈ news, allowed moment.what

theorem Extends.refl (allowed : Happening → Prop) (w : World σ) : w.Extends allowed w :=
  ⟨[], rfl, by simp⟩

theorem Extends.of_past {allowed : Happening → Prop} {w v : World σ} (h : v.past = w.past) :
    w.Extends allowed v :=
  ⟨[], h, by simp⟩

theorem Extends.trans {allowed : Happening → Prop} {w v u : World σ} (h : w.Extends allowed v)
    (h' : v.Extends allowed u) : w.Extends allowed u := by
  obtain ⟨news, hp, hn⟩ := h
  obtain ⟨more, hp', hm⟩ := h'
  refine ⟨more ++ news, by rw [hp', hp, List.append_assoc], ?_⟩
  intro moment hmem
  rcases List.mem_append.mp hmem with h | h
  · exact hm moment h
  · exact hn moment h

theorem extends_note {allowed : Happening → Prop} (w : World σ) {what : Happening}
    (h : allowed what) : w.Extends allowed (w.note what) :=
  ⟨[⟨w.now, what⟩], rfl, by simpa using h⟩

def events (w : World σ) : List Event :=
  w.history.filterMap fun moment =>
    match moment.what with
    | .logged event => some event
    | _ => none

def calls (w : World σ) : List (List String) :=
  w.history.filterMap fun moment =>
    match moment.what with
    | .called words => some words
    | _ => none

def timestamp (w : World σ) : Timestamp :=
  let nanos := w.epoch.nanos + w.now % 1000 * 1000000
  ⟨w.epoch.seconds + (w.now / 1000 : Nat) + (nanos / 1000000000 : Nat), nanos % 1000000000⟩

def fresh (programs : Programs) : World Unit where
  files := .fresh
  programs
  environment := .empty
  now := 0
  epoch := ⟨0, 0⟩
  draws := fun _ => 0
  drawn := 0
  givenUpAfter := 0
  checksAtOnce := 1
  past := []
  services := ()

end World

structure Command where
  program : String
  arguments : List String
  environment : NameMap String
  directory : Option Path

namespace Command

def words (c : Command) : List String :=
  c.program :: c.arguments

def texts (c : Command) : List String :=
  c.words ++ c.environment.names ++ c.environment.values ++ c.directory.toList

def hasNul (c : Command) : Bool :=
  c.texts.any (·.toList.contains (Char.ofNat 0))

end Command

namespace World

variable {σ : Type}

def directoryOf (files : FileTree) : Option Path → Except SystemError Location
  | none => .ok files.current
  | some path =>
    match files.locate path with
    | .error e => .error e
    | .ok ⟨_, none, _⟩ => .error .notFound
    | .ok ⟨_, some (.file _), _⟩ => .error .notADirectory
    | .ok ⟨location, some .directory, _⟩ => .ok location

/-- Why a program does not start that is not to be found. If it is named by a path, there may be
something else. -/
def absence (files : FileTree) (program : String) : SystemError :=
  if program.toList.contains '/' then
    match files.locate program with
    | .error e => e
    | .ok ⟨_, none, _⟩ => .notFound
    | .ok ⟨_, some _, _⟩ => .permissionDenied
  else .notFound

def namesFrom (start location : Location) : List String :=
  if start.isPrefixOf location then location.drop start.length
  else List.replicate start.length ".." ++ location

def behaviourOf (w : World σ) (c : Command) : Except SystemError Behaviour :=
  if c.hasNul then .error .nulInArgument
  else
    match directoryOf w.files c.directory with
    | .error e => .error e
    | .ok location =>
      match w.programs {
        name := c.program
        arguments := c.arguments
        environment := c.environment.entries.foldl (fun all (name, value) => all.insert name value)
          w.environment
        directory := namesFrom w.files.current location } with
      | none => .error (absence { w.files with current := location } c.program)
      | some behaviour => .ok behaviour

def start (w : World σ) (c : Command) : Except SystemError Behaviour × World σ :=
  match w.behaviourOf c with
  | .error e => (.error e, w)
  | .ok behaviour => (.ok behaviour, w.note (.called c.words))

theorem extends_start {allowed : Happening → Prop} (w : World σ) (c : Command)
    (h : allowed (.called c.words)) : w.Extends allowed (w.start c).2 := by
  unfold start
  split
  · exact .refl allowed w
  · exact w.extends_note h

def await (w : World σ) (behaviour : Behaviour) : World σ :=
  { w with now := w.now + behaviour.duration.getD w.givenUpAfter }

end World

namespace Action

variable {σ : Type}

def perform {α : Type} (a : Action σ α) (w : World σ) : Except Failure α × World σ :=
  a.run w

@[simp] theorem perform_pure {α : Type} (x : α) (w : World σ) :
    perform (pure x) w = (.ok x, w) := rfl

@[simp] theorem perform_throw {α : Type} (e : Failure) (w : World σ) :
    perform (throw e : Action σ α) w = (.error e, w) := rfl

@[simp] theorem perform_get (w : World σ) : perform get w = (.ok w, w) := rfl

@[simp] theorem perform_set (v w : World σ) : perform (set v) w = (.ok (), v) := rfl

@[simp] theorem perform_modify (f : World σ → World σ) (w : World σ) :
    perform (modify f) w = (.ok (), f w) := rfl

theorem perform_bind {α β : Type} (a : Action σ α) (f : α → Action σ β) (w : World σ) :
    perform (a >>= f) w =
      match perform a w with
      | (.ok x, v) => perform (f x) v
      | (.error e, v) => (.error e, v) := by
  simp only [perform, bind, ExceptT.bind, ExceptT.run, ExceptT.mk, StateT.bind]
  rcases a w with ⟨x | x, v⟩ <;> rfl

theorem perform_bind_ok {α β : Type} {a : Action σ α} {f : α → Action σ β} {w v : World σ} {y : β}
    (h : perform (a >>= f) w = (.ok y, v)) :
    ∃ x u, perform a w = (.ok x, u) ∧ perform (f x) u = (.ok y, v) := by
  rw [perform_bind] at h
  rcases hp : perform a w with ⟨e | x, u⟩ <;> rw [hp] at h
  · cases h
  · exact ⟨x, u, rfl, h⟩

theorem perform_bind_error {α β : Type} {a : Action σ α} {f : α → Action σ β} {w v : World σ}
    {e : Failure} (h : perform (a >>= f) w = (.error e, v)) :
    perform a w = (.error e, v) ∨
      ∃ x u, perform a w = (.ok x, u) ∧ perform (f x) u = (.error e, v) := by
  rw [perform_bind] at h
  rcases hp : perform a w with ⟨e | x, u⟩ <;> rw [hp] at h
  · cases h
    exact .inl rfl
  · exact .inr ⟨x, u, rfl, h⟩

def Notes {α : Type} (allowed : Happening → Prop) (a : Action σ α) : Prop :=
  ∀ w : World σ, w.Extends allowed (a.perform w).2

def log (event : Event) : Action σ Unit :=
  modify (World.log · event)

@[simp] theorem perform_log (event : Event) (w : World σ) :
    perform (log event) w = (.ok (), w.log event) := rfl

def changeFiles (fault : SystemError → Failure)
    (change : FileTree → Except SystemError FileTree) : Action σ Unit := do
  let w ← get
  match change w.files with
  | .error e => throw (fault e)
  | .ok files => set { w with files }

theorem perform_changeFiles (fault : SystemError → Failure)
    (change : FileTree → Except SystemError FileTree) (w : World σ) :
    perform (changeFiles fault change) w =
      match change w.files with
      | .error e => (.error (fault e), w)
      | .ok files => (.ok (), { w with files }) := by
  rw [changeFiles, perform_bind, perform_get]
  dsimp only
  rcases change w.files with e | files <;> rfl

theorem change_of_changeFiles {fault : SystemError → Failure}
    {change : FileTree → Except SystemError FileTree} {w v : World σ}
    (h : perform (changeFiles fault change) w = (.ok (), v)) : change w.files = .ok v.files := by
  rw [perform_changeFiles] at h
  split at h
  · cases h
  next hc =>
    cases h
    exact hc

def lookAtFiles {α : Type} (fault : SystemError → Failure)
    (look : FileTree → Except SystemError α) : Action σ α := do
  match look (← get).files with
  | .error e => throw (fault e)
  | .ok a => pure a

theorem perform_lookAtFiles {α : Type} (fault : SystemError → Failure)
    (look : FileTree → Except SystemError α) (w : World σ) :
    perform (lookAtFiles fault look) w = ((look w.files).mapError fault, w) := by
  rw [lookAtFiles, perform_bind, perform_get]
  dsimp only
  rcases look w.files with e | a <;> rfl

def runCommand (fault : SystemError → Failure) (c : Command) : Action σ Behaviour := do
  let (result, w) := (← get).start c
  match result with
  | .error e => throw (fault e)
  | .ok behaviour =>
    set (w.await behaviour)
    pure behaviour

theorem perform_runCommand (fault : SystemError → Failure) (c : Command) (w : World σ) :
    perform (runCommand fault c) w =
      match w.start c with
      | (.error e, _) => (.error (fault e), w)
      | (.ok behaviour, v) => (.ok behaviour, v.await behaviour) := by
  rw [runCommand, perform_bind, perform_get]
  dsimp only
  rcases w.start c with ⟨e | behaviour, v⟩ <;> rfl

def attempt {α : Type} (a : Action σ α) : Action σ (Except Failure α) :=
  ExceptT.mk (Except.ok <$> a.run)

@[simp] theorem perform_attempt {α : Type} (a : Action σ α) (w : World σ) :
    perform (attempt a) w = (.ok (perform a w).1, (perform a w).2) :=
  rfl

def ofExcept {α : Type} : Except Failure α → Action σ α
  | .ok a => pure a
  | .error e => throw e

@[simp] theorem perform_ofExcept {α : Type} (result : Except Failure α) (w : World σ) :
    perform (ofExcept result) w = (result, w) := by
  cases result <;> rfl

def draw : Action σ Nat := do
  let w ← get
  set { w with drawn := w.drawn + 1 }
  pure (w.draws w.drawn)

end Action

end Premerge
