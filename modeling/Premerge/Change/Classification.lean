import Premerge.Change.Basic
import Premerge.Failure

namespace Premerge.Change

open Premerge.Data

structure PredicateSpec where
  name : String
  globs : List String
  addedOrModifiedOnly : Bool
  deriving DecidableEq, Repr

structure Predicate where
  name : String
  isMatched : Bool
  files : List String
  deriving DecidableEq, Repr

namespace PredicateSpec

def patterns (spec : PredicateSpec) : List String → Except Failure (List (List Glob.Token))
  | [] => .ok []
  | glob :: rest =>
    match Glob.compile glob with
    | .error e => .error (.config (.badGlob spec.name glob e))
    | .ok tokens =>
      match spec.patterns rest with
      | .error e => .error e
      | .ok more => .ok (tokens :: more)

def selects (spec : PredicateSpec) (patterns : List (List Glob.Token)) (file : File) : Bool :=
  (!spec.addedOrModifiedOnly || file.status.isAddedOrModified)
    && patterns.any (Glob.matchesPath · file.path)

def evaluate (spec : PredicateSpec) (files : List File) : Except Failure Predicate :=
  match spec.patterns spec.globs with
  | .error e => .error e
  | .ok patterns =>
    let matched := (files.filter (spec.selects patterns)).map File.path
    .ok ⟨spec.name, !matched.isEmpty, matched⟩

def decoder : Decoder PredicateSpec := fun reading value => do
  let fields ← Fields.ofValue reading ["name", "globs", "added_or_modified_only"] value
  some ⟨← fields.required reading "name" .text, ← fields.required reading "globs" (.list .text),
    ← fields.withDefault reading "added_or_modified_only" false .bool⟩

def toValue (spec : PredicateSpec) : Value :=
  .table [("name", .text spec.name), ("globs", .texts spec.globs),
    ("added_or_modified_only", .bool spec.addedOrModifiedOnly)]

end PredicateSpec

namespace Predicate

def decoder : Decoder Predicate := fun reading value => do
  let fields ← Fields.ofValue reading ["name", "matched", "files"] value
  some ⟨← fields.required reading "name" .text, ← fields.required reading "matched" .bool,
    ← fields.required reading "files" (.list .text)⟩

def toValue (p : Predicate) : Value :=
  .table [("name", .text p.name), ("matched", .bool p.isMatched), ("files", .texts p.files)]

end Predicate

structure ChangeSet where
  files : List File
  predicates : NameMap Predicate
  deriving DecidableEq, Repr

namespace ChangeSet

def addAll (files : List File) (known : NameMap Predicate) :
    List PredicateSpec → Except Failure (NameMap Predicate)
  | [] => .ok known
  | spec :: rest =>
    match spec.evaluate files with
    | .error e => .error e
    | .ok predicate =>
      if (known.find? spec.name).isSome then .error (.config (.duplicatePredicate spec.name))
      else addAll files (known.insert spec.name predicate) rest

def classify (files : List File) (specs : List PredicateSpec) : Except Failure ChangeSet :=
  match addAll files .empty specs with
  | .error e => .error e
  | .ok predicates => .ok ⟨files, predicates⟩

def isEmpty (changes : ChangeSet) : Bool :=
  changes.files.isEmpty

def predicate? (changes : ChangeSet) (name : String) : Option Predicate :=
  changes.predicates.find? name

def holds (changes : ChangeSet) (name : String) : Bool :=
  match changes.predicate? name with
  | some p => p.isMatched
  | none => false

def filesFor (changes : ChangeSet) (name : String) : List String :=
  match changes.predicate? name with
  | some p => p.files
  | none => []

def decoder : Decoder ChangeSet := fun reading value => do
  let fields ← Fields.ofValue reading ["files", "predicates"] value
  some ⟨← fields.required reading "files" (.list File.decoder),
    ← fields.required reading "predicates" (.nameMap Predicate.decoder)⟩

def toValue (changes : ChangeSet) : Value :=
  .table [("files", .list (changes.files.map File.toValue)),
    ("predicates", .table (changes.predicates.entries.map fun (name, p) => (name, p.toValue)))]

end ChangeSet

end Premerge.Change
