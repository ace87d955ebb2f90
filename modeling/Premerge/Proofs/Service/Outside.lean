import Premerge.Proofs.Service.Files
import Premerge.Proofs.Service.Session
import Premerge.Service.Script

namespace Premerge

open Premerge.World

variable {σ α : Type}

def Failure.isOfServices : Failure → Bool
  | .serviceNotReady _ _ | .service _ => true
  | _ => false

def Reply.failure? : Reply α → Option Failure
  | .now (.error e) | .later _ (.error e) => some e
  | _ => none

lemma Reply.failure?_of_result? {reply : Reply α} {e : Failure}
    (h : reply.result? = some (.error e)) : reply.failure? = some e := by
  rcases reply with result | ⟨ms, result⟩ | _ <;> cases h <;> rfl

structure Runtime.IsOutside (runtime : Runtime σ) : Prop where
  files_up (service : Service) (w : World σ) : (runtime.up service w).2.files = w.files
  files_check (service : Service) (w : World σ) : (runtime.check service w).2.files = w.files
  files_down : runtime.KeepsFiles
  failure_up (service : Service) (w : World σ) :
    ∀ e ∈ (runtime.up service w).1.failure?, e.isOfServices = true
  failure_check (service : Service) (w : World σ) :
    ∀ e ∈ (runtime.check service w).1.failure?, e.isOfServices = true

lemma MemoryServices.isOutside_runtime : runtime.IsOutside where
  files_up _ _ := rfl
  files_check _ _ := rfl
  files_down := keepsFiles_runtime
  failure_up _ _ _ h := by cases h
  failure_check _ _ _ h := by cases h

lemma Line.failure?_reply (yes no : α) (line : Line) :
    ∀ e ∈ (line.reply yes no).failure?, e.isOfServices = true := by
  intro e h
  cases line <;> cases h
  rfl

lemma ScriptedServices.isOutside_runtime : runtime.IsOutside where
  files_up _ _ := rfl
  files_check _ _ := rfl
  files_down names w := by
    simp only [runtime, Action.perform_bind, Action.perform_get, Action.perform_set]
    split <;> rfl
  failure_up service w := Line.failure?_reply _ _ _
  failure_check service w := Line.failure?_reply _ _ _

namespace Composition

lemma failure?_replyOf {read : Behaviour → Except Failure α}
    (h : ∀ behaviour e, read behaviour = .error e → e.isOfServices = true)
    (result : Except SystemError Behaviour) :
    ∀ e ∈ (replyOf read result).failure?, e.isOfServices = true := by
  intro e he
  rcases result with fault | behaviour
  · cases he
    rfl
  · unfold replyOf at he
    dsimp only at he
    split at he
    · rcases hr : read behaviour with fault | x <;> rw [hr] at he
      · cases he
        exact h behaviour _ hr
      · cases he
    · cases he

lemma isOutside_runtime (c : Composition) : (c.runtime : Runtime σ).IsOutside where
  files_up _ _ := World.files_start _ _
  files_check _ _ := World.files_start _ _
  files_down := c.keepsFiles_runtime
  failure_up service w := by
    refine failure?_replyOf (fun behaviour e h => ?_) _
    unfold readUp at h
    split at h
    · cases h
    · cases h
      rfl
  failure_check service w := by
    refine failure?_replyOf (fun behaviour e h => ?_) _
    unfold readCheck at h
    split at h <;> cases h

end Composition

def Progress.failure? : Progress → Option Failure
  | .due _ (.failed e) | .settled (.error e) => some e
  | _ => none

namespace Attempt

def IsOutside (a : Attempt) : Prop :=
  ∀ e ∈ a.progress.failure?, e.isOfServices = true

lemma failure?_afterUp (tick : Tick) (reply : Reply Unit) :
    ∀ e ∈ (afterReply afterUp tick reply).failure?, e ∈ reply.failure? := by
  intro e he
  rcases afterUp_cases tick reply with h | ⟨_, _, ⟨_, h⟩ | ⟨_, hr, h⟩⟩ <;> rw [h] at he <;> cases he
  exact Reply.failure?_of_result? hr

lemma failure?_afterCheck (interval : Nat) (tick : Tick) (reply : Reply Bool) :
    ∀ e ∈ (afterReply (afterCheck interval) tick reply).failure?, e ∈ reply.failure? := by
  intro e he
  rcases afterCheck_cases interval tick reply with
    h | ⟨_, _, ⟨_, h⟩ | ⟨_, h⟩ | ⟨_, hr, h⟩⟩ <;> rw [h] at he <;> cases he
  exact Reply.failure?_of_result? hr

lemma files_make {runtime : Runtime σ} (hr : runtime.IsOutside) (interval began : Nat)
    (service : Service) (tick : Tick) (step : StartStep) (w : World σ) :
    (make runtime interval began service tick step w).2.files = w.files := by
  cases step with
  | up => exact hr.files_up service _
  | granted => rfl
  | check => exact hr.files_check service _
  | passed => rfl
  | failed e => rfl

lemma IsOutside.make {runtime : Runtime σ} (hr : runtime.IsOutside) (interval began : Nat)
    {a : Attempt} (ha : a.IsOutside) {tick : Tick} {step : StartStep}
    (hd : a.progress = .due tick step) (w : World σ) :
    ({ a with progress := (make runtime interval began a.service tick step w).1 } :
      Attempt).IsOutside := by
  intro e he
  cases step with
  | up => exact hr.failure_up a.service _ e (failure?_afterUp _ _ e he)
  | granted => cases he
  | check => exact hr.failure_check a.service _ e (failure?_afterCheck _ _ _ e he)
  | passed => cases he
  | failed failure =>
    cases he
    exact ha e (by rw [hd]; rfl)

lemma isOfServices_of_result {a : Attempt} (ha : a.IsOutside) {window : Nat} {e : Failure}
    (h : a.result window = .error e) : e.isOfServices = true := by
  unfold result at h
  split at h
  next hp =>
    refine ha e ?_
    rw [hp, h]
    rfl
  · cases h
    rfl

end Attempt

namespace Startup

lemma run_outside {runtime : Runtime σ} (hr : runtime.IsOutside)
    (interval began limit fuel : Nat) {attempts : List Attempt} (w : World σ)
    (ha : ∀ a ∈ attempts, a.IsOutside) :
    (∀ a ∈ (run runtime interval began limit fuel attempts w).1, a.IsOutside) ∧
      (run runtime interval began limit fuel attempts w).2.files = w.files := by
  induction fuel generalizing attempts w with
  | zero => exact ⟨ha, rfl⟩
  | succ fuel ih =>
    unfold run
    split
    · exact ⟨ha, rfl⟩
    next place tick step hn =>
      obtain ⟨a, hp, hd⟩ := due_of_next? hn
      simp only [hp]
      have hmade := (ha a (List.mem_of_getElem? hp)).make hr interval began hd w
      obtain ⟨hrest, hf⟩ := ih (Attempt.make runtime interval began a.service tick step w).2
        fun other hm => (List.mem_or_eq_of_mem_set hm).elim (ha other) fun he => he ▸ hmade
      exact ⟨hrest, hf.trans (Attempt.files_make hr interval began a.service tick step w)⟩

lemma all_outside {runtime : Runtime σ} (hr : runtime.IsOutside) (p : Patience)
    (services : List Service) (w : World σ) :
    (∀ e, .error e ∈ (all runtime p services w).1 → e.isOfServices = true) ∧
      (all runtime p services w).2.files = w.files := by
  have hbegin : ∀ a ∈ services.map fun service => Attempt.mk service (.due ⟨w.now, 0⟩ .up),
      a.IsOutside := by
    intro a hm e he
    obtain ⟨service, _, rfl⟩ := List.mem_map.mp hm
    cases he
  obtain ⟨ha, hf⟩ := run_outside hr p.interval w.now (w.now + p.window) (mostSteps w.checksAtOnce p services) w
    hbegin
  constructor
  · intro e he
    obtain ⟨a, hm, hres⟩ := List.mem_map.mp he
    exact Attempt.isOfServices_of_result (ha a hm) hres
  · unfold all
    dsimp only
    split <;> exact hf

lemma eq_or_eq_of_graver {first : Option Failure} {failure e : Failure}
    (h : graver first failure = some e) : first = some e ∨ failure = e := by
  unfold graver at h
  split at h
  · exact .inr (Option.some.inj h)
  · exact .inl h
  · exact .inr (Option.some.inj h)
  · exact .inl h

lemma mem_of_failure? {results : List (Except Failure Unit)} {e : Failure}
    (h : failure? results = some e) : .error e ∈ results := by
  -- From the end, since a failure is judged by those before it.
  induction results using List.reverseRecOn with
  | nil => cases h
  | append_singleton rest result ih =>
    unfold failure? at h ih
    rw [List.foldl_append] at h
    cases result with
    | ok _ => exact List.mem_append_left _ (ih h)
    | error other =>
      rcases eq_or_eq_of_graver h with hf | rfl
      · exact List.mem_append_left _ (ih hf)
      · simp

end Startup

namespace Session

lemma keepsFiles_clearUp {runtime : Runtime σ} (h : runtime.KeepsFiles) (names : List String) :
    (clearUp runtime names).KeepsFiles := by
  refine (keepsFiles_takeDown h names).attempt.bind fun result => ?_
  cases result with
  | ok _ => exact Action.keepsFiles_log _
  | error e => exact (Action.keepsFiles_log _).bind fun _ => Action.keepsFiles_log _

lemma start_outside {runtime : Runtime σ} (hr : runtime.IsOutside) (p : Patience)
    {known : List Service} {names : List String}
    (hk : ∀ name ∈ names, name ∈ known.map Service.name) (w : World σ) :
    ((start runtime p known names).perform w).2.files = w.files ∧
      ∀ e v, (start runtime p known names).perform w = (.error e, v) → e.isOfServices = true := by
  obtain ⟨services, hf⟩ := findAll_of_subset hk
  obtain ⟨he, hfiles⟩ := Startup.all_outside hr p services w
  rw [perform_start runtime p hf]
  split
  · exact ⟨hfiles, fun e v h => by cases h⟩
  next e hfail =>
    refine ⟨(keepsFiles_clearUp hr.files_down names _).trans hfiles, fun other v h => ?_⟩
    cases h
    exact he e (Startup.mem_of_failure? hfail)

end Session

end Premerge
