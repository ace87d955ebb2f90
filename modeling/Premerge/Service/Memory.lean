import Premerge.Service.Runtime

namespace Premerge

open Premerge.Data

structure MemoryServices where
  /-- The number of the check from which on a service is ready: the first if it is not listed,
  none if there is no number. -/
  readyAfter : List (String × Option Nat)
  running : List String
  checks : NameMap Nat
  downs : List (List String)

namespace MemoryServices

def fresh (readyAfter : List (String × Option Nat)) : MemoryServices where
  readyAfter
  running := []
  checks := .empty
  downs := []

def up (s : MemoryServices) (name : String) : MemoryServices :=
  if s.running.contains name then s else { s with running := s.running ++ [name] }

def checkCount (s : MemoryServices) (name : String) : Nat :=
  (s.checks.find? name).getD 0

def isReady (s : MemoryServices) (name : String) (count : Nat) : Bool :=
  match s.readyAfter.lookup name with
  | none => true
  | some none => false
  | some (some needed) => needed ≤ count

def down (s : MemoryServices) (names : List String) : MemoryServices :=
  { s with
    running := s.running.filter (!names.contains ·)
    downs := s.downs ++ [names] }

def runtime : Runtime MemoryServices where
  up service w := (.now (.ok ()), { w with services := w.services.up service.name })
  check service w :=
    let count := w.services.checkCount service.name + 1
    (.now (.ok (w.services.isReady service.name count)),
      { w with services :=
        { w.services with checks := w.services.checks.insert service.name count } })
  down names := modify fun w => { w with services := w.services.down names }
  up_extends _ _ := .of_past rfl
  check_extends _ _ := .of_past rfl
  down_notes _ _ := .of_past rfl

end MemoryServices

end Premerge
