import Premerge.Service.Runtime

/-! Services are started together. Each is brought up and then checked in intervals until it is
ready, and all have to be ready within one window of time. Of several steps that are due in one
round of one time, the one for the earlier service comes first. -/

namespace Premerge

variable {σ : Type}

inductive StartStep where
  | up
  | granted
  | check
  | passed
  | failed (failure : Failure)
  deriving DecidableEq, Repr

/-- A point of a start: a time in milliseconds and a round, which counts the answers that had to be
waited for while the clock stood. -/
structure Tick where
  time : Nat
  round : Nat
  deriving DecidableEq, Repr

namespace Tick

def wait (t : Tick) (ms : Nat) : Tick :=
  if ms = 0 then t else ⟨t.time + ms, 0⟩

def answered (t : Tick) (ms : Nat) : Tick :=
  let later := t.wait ms
  { later with round := later.round + 1 }

/-- Whether a point lies within a limit. At the limit itself, an answer that had to be waited for is
too late. -/
def isWithin (t : Tick) (limit : Nat) : Bool :=
  t.time < limit || (t.time == limit && t.round == 0)

def notAfter (a b : Tick) : Bool :=
  a.time < b.time || (a.time == b.time && a.round ≤ b.round)

end Tick

inductive Progress where
  | due (tick : Tick) (step : StartStep)
  | stuck
  | settled (result : Except Failure Unit)

structure Attempt where
  service : Service
  progress : Progress

structure Patience where
  window : Nat
  interval : Nat
  deriving DecidableEq, Repr

namespace Attempt

def next? (limit : Nat) (a : Attempt) : Option (Tick × StartStep) :=
  match a.progress with
  | .due tick step => if tick.isWithin limit then some (tick, step) else none
  | _ => none

def afterUp (tick : Tick) : Except Failure Unit → Progress
  | .ok () => .due tick .granted
  | .error e => .due tick (.failed e)

def afterCheck (interval : Nat) (tick : Tick) : Except Failure Bool → Progress
  | .ok true => .due tick .passed
  | .ok false => .due (tick.wait interval) .check
  | .error e => .due tick (.failed e)

def afterReply {α : Type} (proceed : Tick → Except Failure α → Progress) (tick : Tick) :
    Reply α → Progress
  | .now result => proceed tick result
  | .later ms result => proceed (tick.answered ms) result
  | .never => .stuck

def make (runtime : Runtime σ) (interval began : Nat) (service : Service) (tick : Tick)
    (step : StartStep) (w : World σ) : Progress × World σ :=
  let w := { w with now := tick.time }
  match step with
  | .up =>
    let (reply, w) := runtime.up service (w.note (.upAsked service))
    (afterReply afterUp tick reply, w)
  | .granted => (.due tick .check, w.note (.upGranted service))
  | .check =>
    let (reply, w) := runtime.check service (w.note (.checkAsked service))
    (afterReply (afterCheck interval) tick reply, w)
  | .passed =>
    (.settled (.ok ()),
      (w.note (.checkPassed service)).log (.serviceReady service.name (w.now - began)))
  | .failed e => (.settled (.error e), w)

def result (window : Nat) (a : Attempt) : Except Failure Unit :=
  match a.progress with
  | .settled result => result
  | _ => .error (.serviceNotReady a.service.name (window / 1000))

end Attempt

namespace Startup

/-- The place, the point and the step of the attempt that comes next: the first of those with the
earliest point. -/
def next? (limit : Nat) : List Attempt → Option (Nat × Tick × StartStep)
  | [] => none
  | a :: rest =>
    match a.next? limit, next? limit rest with
    | none, none => none
    | none, some (place, later) => some (place + 1, later)
    | some own, none => some (0, own)
    | some own, some (place, later) =>
      if own.1.notAfter later.1 then some (0, own) else some (place + 1, later)

def run (runtime : Runtime σ) (interval began limit : Nat) :
    Nat → List Attempt → World σ → List Attempt × World σ
  | 0, attempts, w => (attempts, w)
  | fuel + 1, attempts, w =>
    match next? limit attempts with
    | none => (attempts, w)
    | some (place, tick, step) =>
      match attempts[place]? with
      | none => (attempts, w)
      | some a =>
        let (progress, w) := Attempt.make runtime interval began a.service tick step w
        run runtime interval began limit fuel (attempts.set place { a with progress }) w

/-- A bound on the checks of a service. With an interval the window sets it. Without one, as many are
made at each time of the window as can be made at once. -/
def mostChecks (atOnce : Nat) (p : Patience) : Nat :=
  if p.interval = 0 then atOnce * (p.window + 1) else p.window / p.interval + 1

/-- A bound on the steps of a start: before its checks a service is brought up, and behind them its
result is settled. -/
def mostSteps (atOnce : Nat) (p : Patience) (services : List Service) : Nat :=
  services.length * (mostChecks atOnce p + 3)

def isSettled (a : Attempt) : Bool :=
  match a.progress with
  | .settled _ => true
  | _ => false

/-- Starts the services; the results are in their order. If one is not ready in time, the whole
window has passed. -/
def all (runtime : Runtime σ) (p : Patience) (services : List Service) (w : World σ) :
    List (Except Failure Unit) × World σ :=
  let limit := w.now + p.window
  let attempts := services.map fun service => Attempt.mk service (.due ⟨w.now, 0⟩ .up)
  let (attempts, after) :=
    run runtime p.interval w.now limit (mostSteps w.checksAtOnce p services) attempts w
  -- One service that is not ready keeps the others waiting to the end of the window.
  (attempts.map (Attempt.result p.window),
    if attempts.all isSettled then after else { after with now := limit })

/-- Of two failures the one to report: the earlier, unless only the later is a timeout. -/
def graver (first : Option Failure) (failure : Failure) : Option Failure :=
  match first, failure with
  | none, _ => some failure
  | some (.serviceNotReady name seconds), _ => some (.serviceNotReady name seconds)
  | some _, .serviceNotReady name seconds => some (.serviceNotReady name seconds)
  | some first, _ => some first

def failure? (results : List (Except Failure Unit)) : Option Failure :=
  results.foldl
    (fun first result =>
      match result with
      | .ok () => first
      | .error e => graver first e)
    none

end Startup

end Premerge
