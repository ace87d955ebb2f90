namespace Premerge.Data

inductive Value where
  | null
  | bool (b : Bool)
  | int (n : Int)
  /-- A number written with a point, an exponent or a special name; its text is kept. -/
  | decimal (text : String)
  | text (s : String)
  | moment (text : String)
  | list (items : List Value)
  | table (entries : List (String × Value))
  deriving Repr, Inhabited

namespace Value

def texts (items : List String) : Value :=
  .list (items.map .text)

def nat (n : Nat) : Value :=
  .int n

def optional {α : Type} (encode : α → Value) : Option α → Value
  | none => .null
  | some a => encode a

end Value

def hasWord (n : Int) : Bool :=
  -9223372036854775808 ≤ n && n < 9223372036854775808

def put {α : Type} (entries : List (String × α)) (name : String) (value : α) :
    List (String × α) :=
  match entries with
  | [] => [(name, value)]
  | (other, old) :: rest =>
    if other = name then (name, value) :: rest else (other, old) :: put rest name value

end Premerge.Data
