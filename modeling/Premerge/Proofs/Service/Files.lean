import Mathlib.Tactic.Lemma
import Premerge.Service.Compose
import Premerge.Service.Memory
import Premerge.Service.Session

namespace Premerge

open Premerge.World

variable {σ : Type}

namespace Action

variable {α β : Type}

def KeepsFiles (a : Action σ α) : Prop :=
  ∀ w, (a.perform w).2.files = w.files

lemma KeepsFiles.bind {a : Action σ α} {f : α → Action σ β} (h : a.KeepsFiles)
    (hf : ∀ x, (f x).KeepsFiles) : (a >>= f).KeepsFiles := by
  intro w
  have hw := h w
  rw [perform_bind]
  rcases hp : a.perform w with ⟨e | x, v⟩ <;> rw [hp] at hw
  · exact hw
  · exact (hf x v).trans hw

lemma KeepsFiles.attempt {a : Action σ α} (h : a.KeepsFiles) : (attempt a).KeepsFiles :=
  h

lemma keepsFiles_log (event : Event) : (log event : Action σ Unit).KeepsFiles :=
  fun _ => rfl

lemma keepsFiles_ofExcept (result : Except Failure α) :
    (ofExcept result : Action σ α).KeepsFiles := by
  intro w
  rw [perform_ofExcept]

end Action

def Runtime.KeepsFiles (runtime : Runtime σ) : Prop :=
  ∀ names, (runtime.down names).KeepsFiles

lemma MemoryServices.keepsFiles_runtime : runtime.KeepsFiles :=
  fun _ _ => rfl

lemma World.files_start (w : World σ) (c : Command) : (w.start c).2.files = w.files := by
  unfold start
  split <;> rfl

lemma Composition.keepsFiles_runtime (c : Composition) : (c.runtime : Runtime σ).KeepsFiles := by
  intro names w
  have hcall : (c.call (["rm", "--stop", "--force", "--volumes"] ++ names) w).2.files = w.files :=
    World.files_start _ _
  cases names with
  | nil => rfl
  | cons name rest =>
    simp only [runtime, List.isEmpty_cons, Bool.false_eq_true, if_false, Action.perform_bind,
      Action.perform_get]
    split
    · simpa only [Action.perform_bind, Action.perform_set, Action.perform_throw] using hcall
    · simp only [Action.perform_bind, Action.perform_set]
      split <;> exact hcall

namespace Session

lemma keepsFiles_takeDown {runtime : Runtime σ} (h : runtime.KeepsFiles) (names : List String) :
    (takeDown runtime names).KeepsFiles :=
  Action.KeepsFiles.bind (fun _ => rfl) fun _ => h names

lemma keepsFiles_stop {runtime : Runtime σ} (h : runtime.KeepsFiles) (s : Session) :
    (s.stop runtime).KeepsFiles :=
  (keepsFiles_takeDown h s.names).attempt.bind fun result =>
    (Action.keepsFiles_log _).bind fun _ => Action.keepsFiles_ofExcept result

end Session

end Premerge
