import Premerge.Change.Basic
import Premerge.Failure

/-! The list of changes that a version control system prints is a row of fields, each closed by a
NUL. A record is a code and a path, or a code, a former path and a path. -/

namespace Premerge.Change.NameStatus

def separator : Char := Char.ofNat 0

def fields (output : List Char) : List (List Char) :=
  (Text.Line.pieces separator output).filter (!·.isEmpty)

def records : List (List Char) → Except Failure (List File)
  | [] => .ok []
  | [code] => .error (.git (.truncated (String.ofList code)))
  | code :: first :: rest =>
    let status := Status.ofCode code
    if status.hasSource then
      match rest with
      | [] => .error (.git (.truncated (String.ofList code)))
      | path :: rest =>
        match records rest with
        | .ok files => .ok (⟨String.ofList path, status⟩ :: files)
        | .error e => .error e
    else
      match records rest with
      | .ok files => .ok (⟨String.ofList first, status⟩ :: files)
      | .error e => .error e

def read (output : String) : Except Failure (List File) :=
  records (fields output.toList)

structure Record where
  code : List Char
  source : Option (List Char)
  path : List Char
  deriving DecidableEq, Repr

namespace Record

def fields (r : Record) : List (List Char) :=
  r.code :: r.source.toList ++ [r.path]

/-- No field is empty or holds a separator, and a former path stands where the code asks for it. -/
def Proper (r : Record) : Prop :=
  (∀ field ∈ r.fields, field ≠ [] ∧ separator ∉ field)
    ∧ r.source.isSome = (Status.ofCode r.code).hasSource

def file (r : Record) : File :=
  ⟨String.ofList r.path, Status.ofCode r.code⟩

end Record

def close (fields : List (List Char)) : List Char :=
  fields.flatMap (· ++ [separator])

def encode (records : List Record) : List Char :=
  close (records.flatMap Record.fields)

end Premerge.Change.NameStatus
