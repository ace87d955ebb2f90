import Premerge.Data.Record

namespace Premerge.Change

open Premerge.Data

inductive Status where
  | added
  | modified
  | deleted
  | renamed
  | copied
  | typeChanged
  | other
  deriving DecidableEq, Repr, Inhabited

namespace Status

def ofCode (code : List Char) : Status :=
  match code.head? with
  | some 'A' => .added
  | some 'M' => .modified
  | some 'D' => .deleted
  | some 'R' => .renamed
  | some 'C' => .copied
  | some 'T' => .typeChanged
  | _ => .other

def isAddedOrModified : Status → Bool
  | .added | .modified => true
  | _ => false

def hasSource : Status → Bool
  | .renamed | .copied => true
  | _ => false

def name : Status → String
  | .added => "added"
  | .modified => "modified"
  | .deleted => "deleted"
  | .renamed => "renamed"
  | .copied => "copied"
  | .typeChanged => "type_changed"
  | .other => "other"

def all : List Status :=
  [.added, .modified, .deleted, .renamed, .copied, .typeChanged, .other]

def decoder : Decoder Status :=
  Decoder.member (all.map fun s => (s.name, s))

def toValue (s : Status) : Value := .text s.name

end Status

structure File where
  path : String
  status : Status
  deriving DecidableEq, Repr, Inhabited

namespace File

def decoder : Decoder File := fun reading value => do
  let fields ← Fields.ofValue reading ["path", "status"] value
  some ⟨← fields.required reading "path" .text, ← fields.required reading "status" Status.decoder⟩

def toValue (f : File) : Value :=
  .table [("path", .text f.path), ("status", f.status.toValue)]

end File

end Premerge.Change
