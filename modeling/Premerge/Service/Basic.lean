import Premerge.Data.Record

namespace Premerge

open Premerge.Data

structure Service where
  name : String
  probe : List String
  deriving DecidableEq, Repr, Inhabited

namespace Service

def decoder : Decoder Service := fun reading value => do
  let fields ← Fields.ofValue reading ["name", "probe"] value
  some ⟨← fields.required reading "name" .text,
    ← fields.withDefault reading "probe" [] (.list .text)⟩

def toValue (s : Service) : Value :=
  .table [("name", .text s.name), ("probe", .texts s.probe)]

end Service

inductive Readiness where
  | starting
  | ready
  | stopped
  deriving DecidableEq, Repr

namespace Readiness

def name : Readiness → String
  | .starting => "starting"
  | .ready => "ready"
  | .stopped => "stopped"

def decoder : Decoder Readiness :=
  Decoder.member ([starting, ready, stopped].map fun r => (r.name, r))

def toValue (r : Readiness) : Value := .text r.name

end Readiness

structure ServiceHandle where
  name : String
  state : Readiness
  deriving DecidableEq, Repr

namespace ServiceHandle

def decoder : Decoder ServiceHandle := fun reading value => do
  let fields ← Fields.ofValue reading ["name", "state"] value
  some ⟨← fields.required reading "name" .text, ← fields.required reading "state" Readiness.decoder⟩

def toValue (h : ServiceHandle) : Value :=
  .table [("name", .text h.name), ("state", h.state.toValue)]

end ServiceHandle

end Premerge
