import Premerge.World.Program

/-! A playbook describes programs by rules: which arguments a rule is for and what the program then
does. The first rule that fits counts. A program of the playbook that no rule fits exits with status
97. -/

namespace Premerge.World

open Premerge.Data (NameMap)
open Premerge.Text.Utf8 (Octets encode)

inductive Cue where
  | out (octets : Octets)
  | err (octets : Octets)
  | arguments
  | environment (name : String)
  | directory
  | input
  | pause (ms : Nat)
  | hang
  | signal (number : Nat)
  deriving DecidableEq, Repr

structure Rule where
  name : String
  arguments : Option (List String)
  andMore : Bool
  cues : List Cue
  exit : Int
  deriving Repr

namespace Rule

def fits (rule : Rule) (arguments : List String) : Bool :=
  match rule.arguments with
  | none => true
  | some expected =>
    if rule.andMore then expected.isPrefixOf arguments else expected == arguments

def said (call : Invocation) : Cue → String
  | .arguments => String.join (call.arguments.map fun a => "<" ++ a ++ ">\n")
  | .environment name =>
    match call.environment.find? name with
    | some value => name ++ "=" ++ value ++ "\n"
    | none => name ++ " unset\n"
  | .directory => "cwd=" ++ "/".intercalate call.directory ++ "\n"
  | .input => "stdin=0\n"
  | _ => ""

/-- The signals that have no effect on a program of a playbook. -/
def harmless : List Nat := [0, 13, 17, 18, 23, 28]

/-- The signals that a program of a playbook survives once. -/
def survivedOnce : List Nat := [7, 11]

def lastSignal : Nat := 64

def survives (survived : List Nat) (number : Nat) : Bool :=
  harmless.contains number || number > lastSignal
    || (survivedOnce.contains number && !survived.contains number)

def perform (dying : Nat) (call : Invocation) (exit : Int) : List Nat → List Cue → Behaviour
  | _, [] => ⟨[], .exit (exit % 256), dying⟩
  | _, .hang :: _ => ⟨[], .never, dying⟩
  | survived, .signal number :: rest =>
    if survives survived number then perform dying call exit (number :: survived) rest
    else ⟨[], .killed number, dying⟩
  | survived, cue :: rest =>
    let act := match cue with
      | .out octets => .write .output octets
      | .err octets => .write .errors octets
      | .pause ms => .pause ms
      | cue => .write .output (encode (said call cue))
    let later := perform dying call exit survived rest
    { later with acts := act :: later.acts }

end Rule

/-- The programs of a playbook, which are found by their names and not by paths. They take some time
to be over when they are killed. -/
def Programs.ofRules (dying : Nat) (rules : List Rule) : Programs := fun call =>
  if call.name.toList.contains '/' then none
  else
    match rules.filter (·.name = call.name) with
    | [] => none
    | known =>
      match known.find? (·.fits call.arguments) with
      | some rule => some (Rule.perform dying call rule.exit [] rule.cues)
      | none => some ⟨[], .exit 97, dying⟩

end Premerge.World
