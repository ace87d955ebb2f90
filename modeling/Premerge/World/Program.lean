import Premerge.Data.NameMap
import Premerge.Text.Utf8

namespace Premerge.World

open Premerge.Data (NameMap)
open Premerge.Text.Utf8 (Octets)

inductive Stream where
  | output
  | errors
  deriving DecidableEq, Repr

inductive Act where
  | write (stream : Stream) (octets : Octets)
  | pause (ms : Nat)
  deriving DecidableEq, Repr

inductive Ending where
  | exit (code : Int)
  | killed (signal : Nat)
  | never
  deriving DecidableEq, Repr

structure Behaviour where
  acts : List Act
  ending : Ending
  /-- How long it takes to be over when it is killed from outside. -/
  dying : Nat
  deriving DecidableEq, Repr

namespace Behaviour

def actsTime : List Act → Nat
  | [] => 0
  | .write _ _ :: rest => actsTime rest
  | .pause ms :: rest => ms + actsTime rest

def duration (b : Behaviour) : Option Nat :=
  if b.ending = .never then none else some (actsTime b.acts)

def writtenWithin (chosen : Stream → Bool) (time : Nat) : List Act → Octets
  | [] => []
  | .write stream octets :: rest =>
    (if chosen stream then octets else []) ++ writtenWithin chosen time rest
  | .pause ms :: rest => if ms ≤ time then writtenWithin chosen (time - ms) rest else []

def writtenBy (b : Behaviour) (time : Nat) : Octets :=
  writtenWithin (fun _ => true) time b.acts

def written (b : Behaviour) (stream : Stream) : Octets :=
  writtenWithin (· == stream) (actsTime b.acts) b.acts

def exitCode? (b : Behaviour) : Option Int :=
  match b.ending with
  | .exit code => some code
  | _ => none

def succeeds (b : Behaviour) : Bool :=
  b.exitCode? == some 0

end Behaviour

structure Invocation where
  name : String
  arguments : List String
  environment : NameMap String
  directory : List String
  deriving Repr

abbrev Programs := Invocation → Option Behaviour

end Premerge.World
