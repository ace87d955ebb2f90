import Mathlib.Order.Nat
import Premerge.Proofs.Service.Session

/-! A start of services takes no longer than its window. Wherever checks take time, the bound on its
steps does not cut it short: it makes every step that is due within the window. -/

namespace Premerge

open Premerge.World

variable {σ : Type}

namespace Tick

lemma le_of_isWithin {t : Tick} {limit : Nat} (h : t.isWithin limit = true) : t.time ≤ limit := by
  simp only [isWithin, Bool.or_eq_true, Bool.and_eq_true, decide_eq_true_eq, beq_iff_eq] at h
  omega

def checksLeft (interval limit : Nat) (t : Tick) : Nat :=
  (limit - t.time) / interval + 1

lemma checksLeft_le (interval limit : Nat) {t later : Tick} (h : t.time ≤ later.time) :
    later.checksLeft interval limit ≤ t.checksLeft interval limit :=
  Nat.add_le_add_right (Nat.div_le_div_right (Nat.sub_le_sub_left h limit)) 1

lemma checksLeft_wait {interval limit : Nat} (hi : 0 < interval) {t : Tick}
    (h : (t.wait interval).time ≤ limit) :
    (t.wait interval).checksLeft interval limit + 1 = t.checksLeft interval limit := by
  rw [time_wait] at h
  have hsplit : limit - t.time = limit - (t.time + interval) + interval := by omega
  rw [checksLeft, checksLeft, time_wait, hsplit, Nat.add_div_right _ hi]

end Tick

def Progress.stepsLeft (interval limit : Nat) : Progress → Nat
  | .due tick step =>
    if tick.isWithin limit then
      match step with
      | .up => tick.checksLeft interval limit + 3
      | .granted => tick.checksLeft interval limit + 2
      | .check => tick.checksLeft interval limit + 1
      | .passed | .failed _ => 1
    else 0
  | .stuck | .settled _ => 0

namespace Attempt

lemma le_time_of_afterUp {tick later : Tick} {reply : Reply Unit} {step : StartStep}
    (h : afterReply afterUp tick reply = .due later step) : tick.time ≤ later.time := by
  rcases afterUp_cases tick reply with hs | ⟨_, hle, ⟨_, hs⟩ | ⟨_, _, hs⟩⟩ <;> rw [hs] at h <;>
    cases h
  · exact hle
  · exact hle

lemma le_time_of_afterCheck {interval : Nat} {tick later : Tick} {reply : Reply Bool}
    {step : StartStep} (h : afterReply (afterCheck interval) tick reply = .due later step) :
    tick.time ≤ later.time := by
  rcases afterCheck_cases interval tick reply with
    hs | ⟨_, hle, ⟨_, hs⟩ | ⟨_, hs⟩ | ⟨_, _, hs⟩⟩ <;> rw [hs] at h <;> cases h
  · exact hle
  · exact hle.trans (by simp)
  · exact hle

lemma le_time_of_make {runtime : Runtime σ} {interval began : Nat} {service : Service}
    {tick later : Tick} {step next : StartStep} {w : World σ}
    (h : (make runtime interval began service tick step w).1 = .due later next) :
    tick.time ≤ later.time := by
  cases step with
  | up => exact le_time_of_afterUp h
  | check => exact le_time_of_afterCheck h
  | granted =>
    cases h
    exact le_rfl
  | passed => cases h
  | failed e => cases h

lemma afterUp_ne_settled (tick : Tick) (reply : Reply Unit) (last : Except Failure Unit) :
    afterReply afterUp tick reply ≠ .settled last := by
  rcases afterUp_cases tick reply with h | ⟨_, _, ⟨_, h⟩ | ⟨_, _, h⟩⟩ <;> simp [h]

lemma afterCheck_ne_settled (interval : Nat) (tick : Tick) (reply : Reply Bool)
    (last : Except Failure Unit) : afterReply (afterCheck interval) tick reply ≠ .settled last := by
  rcases afterCheck_cases interval tick reply with h | ⟨_, _, ⟨_, h⟩ | ⟨_, h⟩ | ⟨_, _, h⟩⟩ <;>
    simp [h]

lemma now_of_settled {runtime : Runtime σ} {interval began : Nat} {service : Service}
    {tick : Tick} {step : StartStep} {w : World σ} {last : Except Failure Unit}
    (h : (make runtime interval began service tick step w).1 = .settled last) :
    (make runtime interval began service tick step w).2.now = tick.time := by
  cases step with
  | up => exact absurd h (afterUp_ne_settled _ _ _)
  | check => exact absurd h (afterCheck_ne_settled _ _ _ _)
  | granted => cases h
  | passed => rfl
  | failed e => rfl

lemma isWithin_of_next? {limit : Nat} {a : Attempt} {tick : Tick} {step : StartStep}
    (h : a.next? limit = some (tick, step)) : tick.isWithin limit = true := by
  unfold next? at h
  split at h
  · split at h
    next hw =>
      cases h
      exact hw
    · cases h
  · cases h

lemma stepsLeft_afterUp (interval limit : Nat) (tick : Tick) (reply : Reply Unit) :
    (afterReply afterUp tick reply).stepsLeft interval limit ≤
      tick.checksLeft interval limit + 2 := by
  rcases afterUp_cases tick reply with h | ⟨later, hle, ⟨_, h⟩ | ⟨_, _, h⟩⟩ <;> rw [h]
  · exact Nat.zero_le _
  · have hchecks := Tick.checksLeft_le interval limit hle
    simp only [Progress.stepsLeft]
    split <;> omega
  · simp only [Progress.stepsLeft]
    split <;> omega

lemma stepsLeft_afterCheck {interval : Nat} (hi : 0 < interval) (limit : Nat) (tick : Tick)
    (reply : Reply Bool) : (afterReply (afterCheck interval) tick reply).stepsLeft interval limit ≤
      tick.checksLeft interval limit := by
  have hpos : 1 ≤ tick.checksLeft interval limit := Nat.le_add_left _ _
  rcases afterCheck_cases interval tick reply with
    h | ⟨later, hle, ⟨_, h⟩ | ⟨_, h⟩ | ⟨_, _, h⟩⟩ <;> rw [h]
  · exact Nat.zero_le _
  · simp only [Progress.stepsLeft]
    split <;> omega
  · simp only [Progress.stepsLeft]
    split
    next hw =>
      rw [Tick.checksLeft_wait hi (Tick.le_of_isWithin hw)]
      exact Tick.checksLeft_le interval limit hle
    · exact Nat.zero_le _
  · simp only [Progress.stepsLeft]
    split <;> omega

lemma stepsLeft_make (runtime : Runtime σ) {interval : Nat} (hi : 0 < interval)
    (limit began : Nat) (service : Service) {tick : Tick} (step : StartStep) (w : World σ)
    (hw : tick.isWithin limit = true) :
    (make runtime interval began service tick step w).1.stepsLeft interval limit <
      (Progress.due tick step).stepsLeft interval limit := by
  cases step <;> simp only [Progress.stepsLeft, if_pos hw]
  case up =>
    exact Nat.lt_succ_of_le (stepsLeft_afterUp interval limit tick _)
  case granted => simp [make, hw]
  case check =>
    exact Nat.lt_succ_of_le (stepsLeft_afterCheck hi limit tick _)
  case passed => exact Nat.zero_lt_one
  case failed e => exact Nat.zero_lt_one

end Attempt

namespace Startup

lemma isWithin_of_next? {limit : Nat} {attempts : List Attempt} {place : Nat} {tick : Tick}
    {step : StartStep} (h : next? limit attempts = some (place, tick, step)) :
    tick.isWithin limit = true := by
  induction attempts generalizing place with
  | nil => cases h
  | cons a rest ih =>
    unfold next? at h
    split at h
    · cases h
    next hr =>
      cases h
      exact ih hr
    next ha _ =>
      cases h
      exact Attempt.isWithin_of_next? ha
    next ha hr =>
      split at h
      · cases h
        exact Attempt.isWithin_of_next? ha
      · cases h
        exact ih hr

/-- What holds of the clock while services start: nothing is due before the beginning, and if all
starts are over, the clock is within the limit. -/
structure InTime (began limit : Nat) (attempts : List Attempt) (w : World σ) : Prop where
  due : ∀ a ∈ attempts, ∀ tick step, a.progress = .due tick step → began ≤ tick.time
  settled : attempts.all isSettled = true → began ≤ w.now ∧ w.now ≤ limit

lemma inTime_begin (services : List Service) (w : World σ) (window : Nat) :
    InTime w.now (w.now + window) (services.map fun service => ⟨service, .due ⟨w.now, 0⟩ .up⟩) w := by
  refine ⟨fun a hm tick step hd => ?_, fun _ => ⟨le_rfl, Nat.le_add_right _ _⟩⟩
  obtain ⟨service, _, rfl⟩ := List.mem_map.mp hm
  cases hd
  exact le_rfl

lemma InTime.make {began limit : Nat} {attempts : List Attempt} {w : World σ}
    (h : InTime began limit attempts w) (runtime : Runtime σ) (interval : Nat) {place : Nat}
    {a : Attempt} {tick : Tick} {step : StartStep} (ha : attempts[place]? = some a)
    (hd : a.progress = .due tick step) (hle : tick.time ≤ limit) :
    InTime began limit
      (attempts.set place
        { a with progress := (Attempt.make runtime interval began a.service tick step w).1 })
      (Attempt.make runtime interval began a.service tick step w).2 := by
  have hbegan := h.due a (List.mem_of_getElem? ha) tick step hd
  have hplace := (List.getElem?_eq_some_iff.mp ha).1
  refine ⟨fun other hm later next ho => ?_, fun hall => ?_⟩
  · rcases List.mem_or_eq_of_mem_set hm with hm | rfl
    · exact h.due other hm later next ho
    · exact hbegan.trans (Attempt.le_time_of_make ho)
  · have hset := List.all_eq_true.mp hall _ (List.mem_set hplace _)
    rw [isSettled] at hset
    split at hset
    next last hp => exact (Attempt.now_of_settled hp).symm ▸ ⟨hbegan, hle⟩
    · cases hset

lemma InTime.run {began limit : Nat} {attempts : List Attempt} {w : World σ}
    (h : InTime began limit attempts w) (runtime : Runtime σ) (interval fuel : Nat) :
    InTime began limit (run runtime interval began limit fuel attempts w).1
      (run runtime interval began limit fuel attempts w).2 := by
  induction fuel generalizing attempts w with
  | zero => exact h
  | succ fuel ih =>
    unfold Startup.run
    split
    · exact h
    next place tick step hn =>
      obtain ⟨a, ha, hd⟩ := due_of_next? hn
      simp only [ha]
      exact ih (h.make runtime interval ha hd (Tick.le_of_isWithin (isWithin_of_next? hn)))

lemma now_all (runtime : Runtime σ) (p : Patience) (services : List Service) (w : World σ) :
    w.now ≤ (all runtime p services w).2.now ∧
      (all runtime p services w).2.now ≤ w.now + p.window := by
  have h := (inTime_begin services w p.window).run runtime p.interval (mostSteps w.checksAtOnce p services)
  unfold all
  dsimp only
  split
  next hall => exact h.settled hall
  · exact ⟨Nat.le_add_right _ _, le_rfl⟩

def stepsLeft (interval limit : Nat) : List Attempt → Nat
  | [] => 0
  | a :: rest => a.progress.stepsLeft interval limit + stepsLeft interval limit rest

lemma stepsLeft_append (interval limit : Nat) (attempts others : List Attempt) :
    stepsLeft interval limit (attempts ++ others) =
      stepsLeft interval limit attempts + stepsLeft interval limit others := by
  induction attempts with
  | nil => simp [stepsLeft]
  | cons a rest ih => rw [List.cons_append, stepsLeft, stepsLeft, ih, Nat.add_assoc]

lemma stepsLeft_begin (interval window : Nat) (services : List Service) (w : World σ) :
    stepsLeft interval (w.now + window)
      (services.map fun service => ⟨service, .due ⟨w.now, 0⟩ .up⟩) =
        services.length * (window / interval + 1 + 3) := by
  have hw : (Tick.mk w.now 0).isWithin (w.now + window) = true := by
    rcases window with _ | window <;> simp [Tick.isWithin]
  induction services with
  | nil => simp [stepsLeft]
  | cons service rest ih =>
    rw [List.map_cons, stepsLeft, ih, Progress.stepsLeft, if_pos hw, Tick.checksLeft,
      Nat.add_sub_cancel_left, List.length_cons, Nat.succ_mul, Nat.add_comm]

lemma stepsLeft_make (runtime : Runtime σ) {interval : Nat} (hi : 0 < interval)
    {limit place : Nat} (began : Nat) {attempts : List Attempt} {tick : Tick} {step : StartStep}
    {a : Attempt} (w : World σ) (hn : next? limit attempts = some (place, tick, step))
    (ha : attempts[place]? = some a) (hd : a.progress = .due tick step) :
    stepsLeft interval limit
      (attempts.set place
        { a with progress := (Attempt.make runtime interval began a.service tick step w).1 }) <
      stepsLeft interval limit attempts := by
  have hless := Attempt.stepsLeft_make runtime hi limit began a.service step w (isWithin_of_next? hn)
  obtain ⟨hlt, hget⟩ := List.getElem?_eq_some_iff.mp ha
  obtain ⟨front, back, hsplit, _, hset⟩ := List.exists_of_set hlt
  rw [hset, hsplit, hget]
  simp only [stepsLeft_append, stepsLeft, hd]
  omega

lemma next?_run (runtime : Runtime σ) {interval : Nat} (hi : 0 < interval) (began limit : Nat)
    {fuel : Nat} {attempts : List Attempt} (w : World σ)
    (h : stepsLeft interval limit attempts ≤ fuel) :
    next? limit (run runtime interval began limit fuel attempts w).1 = none := by
  induction fuel generalizing attempts w with
  | zero =>
    rcases hn : next? limit attempts with _ | ⟨place, tick, step⟩
    · exact hn
    · obtain ⟨a, ha, hd⟩ := due_of_next? hn
      have hless := stepsLeft_make runtime hi began w hn ha hd
      omega
  | succ fuel ih =>
    unfold Startup.run
    split
    · assumption
    next place tick step hn =>
      obtain ⟨a, ha, hd⟩ := due_of_next? hn
      have hless := stepsLeft_make runtime hi began w hn ha hd
      simp only [ha]
      exact ih _ (by omega)

lemma next?_mostSteps (runtime : Runtime σ) {p : Patience} (hi : p.interval ≠ 0)
    (services : List Service) (w : World σ) :
    next? (w.now + p.window)
      (run runtime p.interval w.now (w.now + p.window) (mostSteps w.checksAtOnce p services)
        (services.map fun service => ⟨service, .due ⟨w.now, 0⟩ .up⟩) w).1 = none := by
  refine next?_run runtime (Nat.pos_of_ne_zero hi) _ _ w ?_
  rw [stepsLeft_begin, mostSteps, mostChecks, if_neg hi]

end Startup

lemma Session.now_start {runtime : Runtime σ} {p : Patience} {known : List Service}
    {names : List String} {w u : World σ} {session : Session}
    (hk : ∀ name ∈ names, name ∈ known.map Service.name)
    (h : (start runtime p known names).perform w = (.ok session, u)) :
    w.now ≤ u.now ∧ u.now ≤ w.now + p.window := by
  obtain ⟨services, hf⟩ := findAll_of_subset hk
  rw [perform_start runtime p hf] at h
  split at h <;> cases h
  exact Startup.now_all runtime p services w

end Premerge
