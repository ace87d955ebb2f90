import Premerge.Data.Value

/-! A TOML text builds its tables piece by piece. A node remembers how its table came about, because
that decides who may still add to it: a header closes a table, a dotted key may be continued by
other dotted keys, and a table that only lies on the way of a header may get a header of its own. -/

namespace Premerge.Data.Toml

inductive Origin where
  | declared
  | implied
  | dotted
  deriving DecidableEq, Repr

inductive Node where
  | leaf (value : Value)
  | table (origin : Origin) (entries : List (String × Node))
  | rows (latest : List (String × Node)) (earlier : List (List (String × Node)))
  deriving Repr

abbrev Entries := List (String × Node)

mutual

def Node.toValue : Node → Value
  | .leaf value => value
  | .table _ entries => .table (entryValues entries)
  | .rows latest earlier => .list (rowValues earlier [.table (entryValues latest)])

def entryValues : List (String × Node) → List (String × Value)
  | [] => []
  | (name, node) :: rest => (name, node.toValue) :: entryValues rest

def rowValues : List (List (String × Node)) → List Value → List Value
  | [], done => done
  | row :: earlier, done => rowValues earlier (.table (entryValues row) :: done)

end

/-- Changes the table that a path leads to from a table of the given origin. Missing tables on the
way are made, with the given origin. A dotted key does not go through declared tables. -/
def alter (made : Origin) (change : Origin → Entries → Option Entries) :
    List String → Origin → Entries → Option Entries
  | [], origin, entries => change origin entries
  | name :: path, _, entries =>
    match entries.lookup name with
    | none => (alter made change path made []).map fun inner =>
      entries ++ [(name, .table made inner)]
    | some (.leaf _) => none
    | some (.table origin inner) =>
      if made = .dotted ∧ origin = .declared then none
      else (alter made change path origin inner).map fun inner =>
        put entries name (.table origin inner)
    | some (.rows latest earlier) =>
      (alter made change path .declared latest).map fun latest =>
        put entries name (.rows latest earlier)

/-- Adds a value under the last part of a dotted key. Its table is the one in which the key
stands, or one that dotted keys made. -/
def addValue (path : List String) (name : String) (value : Value) (entries : Entries) :
    Option Entries :=
  alter .dotted (fun origin inner =>
    if (origin == .dotted) == path.isEmpty then none
    else if (inner.lookup name).isSome then none
    else some (inner ++ [(name, .leaf value)])) path .declared entries

def addTable (path : List String) (name : String) (entries : Entries) : Option Entries :=
  alter .implied (fun _ inner =>
    match inner.lookup name with
    | none => some (inner ++ [(name, .table .declared [])])
    -- A table on the way of an earlier header can still have one of its own.
    | some (.table .implied found) => some (put inner name (.table .declared found))
    | some _ => none) path .declared entries

def addRow (path : List String) (name : String) (entries : Entries) : Option Entries :=
  alter .implied (fun _ inner =>
    match inner.lookup name with
    | none => some (inner ++ [(name, .rows [] [])])
    | some (.rows latest earlier) => some (put inner name (.rows [] (latest :: earlier)))
    | some _ => none) path .declared entries

def addBelow (header path : List String) (name : String) (value : Value) (entries : Entries) :
    Option Entries :=
  alter .implied (fun _ inner => addValue path name value inner) header .declared entries

end Premerge.Data.Toml
