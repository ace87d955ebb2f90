import Premerge.Data.Record

/-! Words of a command line are read from left to right as options with and without values. An
option may be given once. What is not given may come from a variable, and then from a default. -/

namespace Premerge.CommandLine

open Premerge.Data

inductive ValueKind where
  | text
  | path
  | size
  deriving DecidableEq, Repr

def sizeOf? (text : String) : Option Nat :=
  let digits := match text.toList with
    | '+' :: rest => rest
    | digits => digits
  if digits.isEmpty ∨ ¬ digits.all Char.isDigit then none
  else
    let n := digits.foldl (fun n c => n * 10 + (c.toNat - '0'.toNat)) 0
    if n < Decoder.sizeBound then some n else none

def ValueKind.admits (kind : ValueKind) (text : String) : Bool :=
  match kind with
  | .text => true
  | .path => !text.isEmpty
  | .size => (sizeOf? text).isSome

structure OptionRule where
  name : String
  kind : ValueKind
  fallback : Option String

structure Grammar where
  valued : List OptionRule
  flags : List String
  letters : List (Char × String)
  hasVersion : Bool

structure Given where
  values : List (String × String)
  flags : List String
  deriving DecidableEq, Repr

inductive Stop where
  | misuse
  | help
  | version
  deriving DecidableEq, Repr

namespace Given

def empty : Given := ⟨[], []⟩

def addFlag (given : Given) (name : String) : Except Stop Given :=
  if given.flags.contains name then .error .misuse
  else .ok { given with flags := given.flags ++ [name] }

def addValue (given : Given) (rule : OptionRule) (value : String) : Except Stop Given :=
  if (given.values.lookup rule.name).isSome ∨ ¬ rule.kind.admits value then .error .misuse
  else .ok { given with values := given.values ++ [(rule.name, value)] }

end Given

inductive Word where
  | dashes
  | long (name : String) (value : Option String)
  | short (letters : List Char)
  | plain (text : String)
  deriving DecidableEq, Repr

namespace Word

def ofText (text : String) : Word :=
  match text.toList with
  | ['-', '-'] => .dashes
  | '-' :: '-' :: rest =>
    let name := rest.takeWhile (· ≠ '=')
    match rest.dropWhile (· ≠ '=') with
    | [] => .long (String.ofList name) none
    | _ :: value => .long (String.ofList name) (some (String.ofList value))
  | '-' :: c :: letters => .short (c :: letters)
  | _ => .plain text

end Word

namespace Grammar

def addLetter (g : Grammar) (given : Given) (letter : Char) : Except Stop Given :=
  if letter = 'h' then .error .help
  else if letter = 'V' ∧ g.hasVersion then .error .version
  else match g.letters.lookup letter with
    | some flag => given.addFlag flag
    | none => .error .misuse

def addLetters (g : Grammar) (given : Given) : List Char → Except Stop Given
  | [] => .ok given
  | letter :: rest =>
    match g.addLetter given letter with
    | .error stop => .error stop
    | .ok given => g.addLetters given rest

def addLong (g : Grammar) (given : Given) (name : String) : Except Stop Given :=
  if name = "help" then .error .help
  else if name = "version" ∧ g.hasVersion then .error .version
  else if g.flags.contains name then given.addFlag name
  else .error .misuse

def scan (g : Grammar) (given : Given) : List String → Except Stop (Given × List String)
  | [] => .ok (given, [])
  | word :: rest =>
    match Word.ofText word with
    | .plain text => .ok (given, text :: rest)
    | .dashes => if rest.isEmpty then .ok (given, []) else .error .misuse
    | .short letters =>
      match g.addLetters given letters with
      | .error stop => .error stop
      | .ok given => g.scan given rest
    | .long name (some value) =>
      match g.valued.find? (·.name == name) with
      | none => .error .misuse
      | some rule =>
        match given.addValue rule value with
        | .error stop => .error stop
        | .ok given => g.scan given rest
    | .long name none =>
      match g.valued.find? (·.name == name), rest with
      | some rule, value :: rest =>
        -- What looks like an option is no value.
        match Word.ofText value with
        | .plain value =>
          match given.addValue rule value with
          | .error stop => .error stop
          | .ok given => g.scan given rest
        | _ => .error .misuse
      | some _, [] => .error .misuse
      | none, rest =>
        match g.addLong given name with
        | .error stop => .error stop
        | .ok given => g.scan given rest

def complete (environment : NameMap String) (given : Given) :
    List OptionRule → Except Stop (NameMap String)
  | [] => .ok .empty
  | rule :: rest =>
    match complete environment given rest with
    | .error stop => .error stop
    | .ok values =>
      match given.values.lookup rule.name with
      | some value => .ok (values.insert rule.name value)
      | none =>
        match rule.fallback.bind environment.find? with
        | none => .ok values
        | some value =>
          if rule.kind.admits value then .ok (values.insert rule.name value) else .error .misuse

end Grammar

end Premerge.CommandLine
