import Premerge.Data.NameMap
import Premerge.Data.Value

/-! How a value is read as a record, an enumeration, a number or a list. The two data formats differ
in a few liberties, which a `Reading` lists. -/

namespace Premerge.Data

structure Reading where
  /-- A list that stands for a record may hold more items than the record has fields. -/
  spareItems : Bool
  /-- What may stand beside the name of an enumeration's member, as in a table of one entry. -/
  isUnit : Value → Bool

namespace Reading

def json : Reading where
  spareItems := false
  isUnit
    | .null => true
    | _ => false

def toml : Reading where
  spareItems := true
  isUnit
    | .list [] => true
    | .table [] => true
    | _ => false

end Reading

abbrev Decoder (α : Type) := Reading → Value → Option α

/-- The name of the one field of a point in time where a table is expected. -/
def momentField : String := "$__toml_private_datetime"

structure Fields where
  positional : Bool
  entries : List (String × Value)

namespace Fields

def ofValue (reading : Reading) (names : List String) : Value → Option Fields
  | .table entries => some ⟨false, entries⟩
  | .moment text => some ⟨false, [(momentField, .text text)]⟩
  | .list items =>
    if reading.spareItems || items.length ≤ names.length then some ⟨true, names.zip items⟩
    else none
  | _ => none

def required {α : Type} (fields : Fields) (reading : Reading) (name : String)
    (decode : Decoder α) : Option α :=
  (fields.entries.lookup name).bind (decode reading)

def withDefault {α : Type} (fields : Fields) (reading : Reading) (name : String)
    (default : α) (decode : Decoder α) : Option α :=
  match fields.entries.lookup name with
  | none => some default
  | some value => decode reading value

end Fields

namespace Decoder

def bool : Decoder Bool := fun _ value =>
  match value with
  | .bool b => some b
  | _ => none

def text : Decoder String := fun _ value =>
  match value with
  | .text s => some s
  | _ => none

def sizeBound : Nat := 18446744073709551616

def size : Decoder Nat := fun _ value =>
  match value with
  | .int n => if 0 ≤ n ∧ n < sizeBound then some n.toNat else none
  | _ => none

def int32 : Decoder Int := fun _ value =>
  match value with
  | .int n => if -2147483648 ≤ n ∧ n < 2147483648 then some n else none
  | _ => none

def list {α : Type} (item : Decoder α) : Decoder (List α) := fun reading value =>
  match value with
  | .list items => items.mapM (item reading)
  | _ => none

def optional {α : Type} (item : Decoder α) : Decoder (Option α) := fun reading value =>
  match value with
  | .null => some none
  | value => (item reading value).map some

def nameMap {α : Type} (item : Decoder α) : Decoder (NameMap α) := fun reading value =>
  match value with
  | .table entries =>
    (entries.mapM fun (entry : String × Value) =>
      (item reading entry.2).map fun a => (entry.1, a)).map NameMap.ofList
  | .moment text => (item reading (.text text)).map fun a => NameMap.ofList [(momentField, a)]
  | _ => none

def member {α : Type} (members : List (String × α)) : Decoder α := fun reading value =>
  match value with
  | .text name => members.lookup name
  | .table [(name, unit)] => if reading.isUnit unit then members.lookup name else none
  | _ => none

end Decoder

def Fields.optional {α : Type} (fields : Fields) (reading : Reading) (name : String)
    (decode : Decoder α) : Option (Option α) :=
  match fields.entries.lookup name with
  | none => if fields.positional then none else some none
  | some value => Decoder.optional decode reading value

end Premerge.Data
