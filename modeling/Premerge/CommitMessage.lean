import Premerge.Data.Record
import Premerge.Text.Line

namespace Premerge

open Premerge.Data

structure LongLine where
  number : Nat
  length : Nat
  text : String
  deriving DecidableEq, Repr

namespace LongLine

def message (line : LongLine) : String :=
  "line " ++ toString line.number ++ " (" ++ toString line.length ++ " chars): " ++ line.text

def decoder : Decoder LongLine := fun reading value => do
  let fields ← Fields.ofValue reading ["number", "length", "text"] value
  some ⟨← fields.required reading "number" .size, ← fields.required reading "length" .size,
    ← fields.required reading "text" .text⟩

def toValue (line : LongLine) : Value :=
  .table [("number", .nat line.number), ("length", .nat line.length), ("text", .text line.text)]

end LongLine

structure CommitMessage where
  lines : List String
  deriving DecidableEq, Repr

namespace CommitMessage

def defaultLimit : Nat := 72

def ofText (text : String) : CommitMessage :=
  ⟨Text.Line.lines text⟩

def longLinesFrom (limit : Nat) : Nat → List String → List LongLine
  | _, [] => []
  | number, line :: rest =>
    if line.length > limit then
      ⟨number, line.length, line⟩ :: longLinesFrom limit (number + 1) rest
    else longLinesFrom limit (number + 1) rest

def longLines (message : CommitMessage) (limit : Nat) : List LongLine :=
  longLinesFrom limit 1 message.lines

def decoder : Decoder CommitMessage := fun reading value => do
  let fields ← Fields.ofValue reading ["lines"] value
  some ⟨← fields.required reading "lines" (.list .text)⟩

def toValue (message : CommitMessage) : Value :=
  .table [("lines", .texts message.lines)]

end CommitMessage

end Premerge
