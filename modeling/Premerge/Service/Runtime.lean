import Premerge.World.Basic

namespace Premerge

inductive Reply (α : Type) where
  | now (result : Except Failure α)
  /-- It comes after some milliseconds, and even without any after what else is to be done now. -/
  | later (ms : Nat) (result : Except Failure α)
  | never

structure Runtime (σ : Type) where
  up : Service → World σ → Reply Unit × World σ
  check : Service → World σ → Reply Bool × World σ
  down : List String → Action σ Unit
  /-- A runtime notes its own calls and no step of a job. -/
  up_extends (service : Service) (w : World σ) : w.Extends (·.isOfRuntime) (up service w).2
  check_extends (service : Service) (w : World σ) : w.Extends (·.isOfRuntime) (check service w).2
  down_notes (names : List String) : (down names).Notes (·.isOfRuntime)

end Premerge
