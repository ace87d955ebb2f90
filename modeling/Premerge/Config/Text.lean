import Premerge.Config.Validation
import Premerge.Data.Toml.Printer
import Premerge.Data.Toml.Reader

namespace Premerge.Config

open Premerge.Data Premerge.World

def parse? (text : String) : Option Config :=
  (Toml.read text).bind (decoder .toml)

def ofText (text : String) : Except Failure Config :=
  match parse? text with
  | none => .error (.config .malformed)
  | some c =>
    match c.validate with
    | .ok () => .ok c
    | .error e => .error e

theorem ofText_eq_ok_iff {text : String} {c : Config} :
    ofText text = .ok c ↔ parse? text = some c ∧ c.validate = .ok () := by
  rw [ofText]
  cases hp : parse? text with
  | none => simp
  | some parsed =>
    cases hv : parsed.validate with
    | error e =>
      simp only [hv, reduceCtorEq, Option.some_inj, false_iff, not_and]
      rintro rfl hok
      cases hv.symm.trans hok
    | ok _ =>
      simp only [hv, Except.ok.injEq, Option.some_inj]
      exact ⟨fun h => ⟨h, h ▸ hv⟩, fun h => h.1⟩

def toText? (c : Config) : Option String :=
  Toml.print c.entries

def fileName : String := "prgate.toml"

def load (files : FileTree) (path : Path) : Except Failure Config :=
  match files.readText path with
  | .error e => .error (.config (.unreadable path e))
  | .ok text =>
    match ofText text with
    | .ok c => .ok c
    | .error (.config fault) => .error (.config (.inFile path fault))
    | .error e => .error e

/-- The configuration of the given file, or of the repository's own if there is one, or the
standard one. -/
def loadOrStandard (files : FileTree) (path : Option Path) (repository : Path) :
    Except Failure Config :=
  match path with
  | some path => load files path
  | none =>
    let own := Path.join repository fileName
    if files.isFile own then load files own else .ok standard

end Premerge.Config
