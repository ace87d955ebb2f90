import Mathlib.Data.List.Induction
import Premerge.Proofs.World.Quiet
import Premerge.Service.Session

namespace Premerge

open Premerge.World

variable {σ α : Type}

def Happening.isOfStart : Happening → Bool
  | .downAsked _ | .toolStarted _ | .toolEnded _ => false
  | _ => true

lemma Happening.isOfStart_of_isQuiet {what : Happening} (h : what.isQuiet = true) :
    what.isOfStart = true := by
  cases what <;> first | rfl | cases h

def passedServices (moments : List Moment) : List Service :=
  moments.filterMap fun moment =>
    match moment.what with
    | .checkPassed service => some service
    | _ => none

lemma passedServices_append (earlier later : List Moment) :
    passedServices (earlier ++ later) = passedServices earlier ++ passedServices later :=
  List.filterMap_append

lemma passedServices_of_isOfTools {moments : List Moment}
    (h : ∀ moment ∈ moments, moment.what.isOfTools = true) : passedServices moments = [] := by
  refine List.filterMap_eq_nil_iff.mpr fun moment hm => ?_
  have ht := h moment hm
  split
  next hw =>
    rw [hw] at ht
    cases ht
  · rfl

lemma passedServices_of_isQuiet {moments : List Moment}
    (h : ∀ moment ∈ moments, moment.what.isQuiet = true) : passedServices moments = [] :=
  passedServices_of_isOfTools fun moment hm => Happening.isOfTools_of_isQuiet (h moment hm)

def Reply.result? : Reply α → Option (Except Failure α)
  | .now result | .later _ result => some result
  | .never => none

namespace Tick

@[simp] lemma time_wait (t : Tick) (ms : Nat) : (t.wait ms).time = t.time + ms := by
  rw [wait]
  split <;> simp_all

@[simp] lemma time_answered (t : Tick) (ms : Nat) : (t.answered ms).time = t.time + ms :=
  time_wait t ms

end Tick

def Progress.isReady : Progress → Bool
  | .settled (.ok ()) => true
  | _ => false

namespace Attempt

def isReady (a : Attempt) : Bool :=
  a.progress.isReady

lemma afterReply_cases (proceed : Tick → Except Failure α → Progress) (tick : Tick)
    (reply : Reply α) :
    afterReply proceed tick reply = .stuck ∨ ∃ later result, tick.time ≤ later.time ∧
      reply.result? = some result ∧ afterReply proceed tick reply = proceed later result := by
  cases reply with
  | now result => exact .inr ⟨tick, result, Nat.le_refl _, rfl, rfl⟩
  | later ms result => exact .inr ⟨tick.answered ms, result, by simp, rfl, rfl⟩
  | never => exact .inl rfl

lemma afterUp_cases (tick : Tick) (reply : Reply Unit) :
    afterReply afterUp tick reply = .stuck ∨ ∃ later, tick.time ≤ later.time ∧
      (reply.result? = some (.ok ()) ∧ afterReply afterUp tick reply = .due later .granted ∨
        ∃ e, reply.result? = some (.error e) ∧
          afterReply afterUp tick reply = .due later (.failed e)) := by
  rcases afterReply_cases afterUp tick reply with h | ⟨later, e | _, hle, hr, h⟩
  · exact .inl h
  · exact .inr ⟨later, hle, .inr ⟨e, hr, h⟩⟩
  · exact .inr ⟨later, hle, .inl ⟨hr, h⟩⟩

lemma afterCheck_cases (interval : Nat) (tick : Tick) (reply : Reply Bool) :
    afterReply (afterCheck interval) tick reply = .stuck ∨ ∃ later, tick.time ≤ later.time ∧
      (reply.result? = some (.ok true) ∧
          afterReply (afterCheck interval) tick reply = .due later .passed ∨
        reply.result? = some (.ok false) ∧
          afterReply (afterCheck interval) tick reply = .due (later.wait interval) .check ∨
        ∃ e, reply.result? = some (.error e) ∧
          afterReply (afterCheck interval) tick reply = .due later (.failed e)) := by
  rcases afterReply_cases (afterCheck interval) tick reply with h | ⟨later, e | _ | _, hle, hr, h⟩
  · exact .inl h
  · exact .inr ⟨later, hle, .inr (.inr ⟨e, hr, h⟩)⟩
  · exact .inr ⟨later, hle, .inr (.inl ⟨hr, h⟩)⟩
  · exact .inr ⟨later, hle, .inl ⟨hr, h⟩⟩

lemma isReady_afterUp (tick : Tick) (reply : Reply Unit) :
    (afterReply afterUp tick reply).isReady = false := by
  rcases afterUp_cases tick reply with h | ⟨_, _, ⟨_, h⟩ | ⟨_, _, h⟩⟩ <;> rw [h] <;> rfl

lemma isReady_afterCheck (interval : Nat) (tick : Tick) (reply : Reply Bool) :
    (afterReply (afterCheck interval) tick reply).isReady = false := by
  rcases afterCheck_cases interval tick reply with
    h | ⟨_, _, ⟨_, h⟩ | ⟨_, h⟩ | ⟨_, _, h⟩⟩ <;> rw [h] <;> rfl

lemma asked_history {w v : World σ} (what : Happening) (hs : what.isOfStart = true)
    (hp : passedServices [⟨w.now, what⟩] = [])
    (h : (w.note what).Extends (fun what => what.isOfRuntime = true) v) :
    ∃ news, v.history = w.history ++ news ∧
      (∀ moment ∈ news, moment.what.isOfStart = true) ∧ passedServices news = [] := by
  obtain ⟨news, he, hn⟩ := h.history
  have hq : ∀ moment ∈ news, moment.what.isQuiet = true :=
    fun moment hm => Happening.isQuiet_of_isOfRuntime (hn moment hm)
  refine ⟨⟨w.now, what⟩ :: news, by rw [he, history_note, List.append_assoc]; rfl, ?_, ?_⟩
  · intro moment hm
    rcases List.mem_cons.mp hm with rfl | hm
    · exact hs
    · exact Happening.isOfStart_of_isQuiet (hq moment hm)
  · rw [← List.singleton_append, passedServices_append, hp, passedServices_of_isQuiet hq]
    rfl

lemma make_history (runtime : Runtime σ) (interval began : Nat) (service : Service) (tick : Tick)
    (step : StartStep) (w : World σ) :
    ∃ news, (make runtime interval began service tick step w).2.history = w.history ++ news ∧
      (∀ moment ∈ news, moment.what.isOfStart = true) ∧
      passedServices news =
        if (make runtime interval began service tick step w).1.isReady then [service] else [] := by
  cases step with
  | up =>
    obtain ⟨news, hh, hs, hp⟩ := asked_history (w := { w with now := tick.time })
      (.upAsked service) rfl rfl (runtime.up_extends service _)
    refine ⟨news, hh, hs, ?_⟩
    rw [hp, make, isReady_afterUp]
    rfl
  | granted =>
    exact ⟨[⟨tick.time, .upGranted service⟩], history_note _ _, by simp [Happening.isOfStart], rfl⟩
  | check =>
    obtain ⟨news, hh, hs, hp⟩ := asked_history (w := { w with now := tick.time })
      (.checkAsked service) rfl rfl (runtime.check_extends service _)
    refine ⟨news, hh, hs, ?_⟩
    rw [hp, make, isReady_afterCheck]
    rfl
  | passed =>
    refine ⟨[⟨tick.time, .checkPassed service⟩,
      ⟨tick.time, .logged (.serviceReady service.name (tick.time - began))⟩], ?_, ?_, rfl⟩
    · simp [make, World.history, note, log]
    · simp [Happening.isOfStart]
  | failed e =>
    exact ⟨[], (List.append_nil _).symm, by simp, rfl⟩

lemma due_of_next? {limit : Nat} {a : Attempt} {tick : Tick} {step : StartStep}
    (h : a.next? limit = some (tick, step)) : a.progress = .due tick step := by
  unfold next? at h
  split at h
  next hp =>
    split at h
    · cases h
      exact hp
    · cases h
  · cases h

lemma isReady_of_result {window : Nat} {a : Attempt} (h : a.result window = .ok ()) :
    a.isReady = true := by
  unfold result at h
  unfold isReady
  split at h
  next hp =>
    rw [hp, h]
    rfl
  · cases h

end Attempt

namespace Startup

lemma due_of_next? {limit : Nat} {attempts : List Attempt} {place : Nat} {tick : Tick}
    {step : StartStep} (h : next? limit attempts = some (place, tick, step)) :
    ∃ a, attempts[place]? = some a ∧ a.progress = .due tick step := by
  induction attempts generalizing place with
  | nil => cases h
  | cons a rest ih =>
    unfold next? at h
    split at h
    · cases h
    next hr =>
      cases h
      obtain ⟨other, ho, hd⟩ := ih hr
      exact ⟨other, ho, hd⟩
    next ha _ =>
      cases h
      exact ⟨a, rfl, Attempt.due_of_next? ha⟩
    next ha hr =>
      split at h
      · cases h
        exact ⟨a, rfl, Attempt.due_of_next? ha⟩
      · cases h
        obtain ⟨other, ho, hd⟩ := ih hr
        exact ⟨other, ho, hd⟩

structure Attempted (services : List Service) (w : World σ) (attempts : List Attempt)
    (v : World σ) : Prop where
  services : attempts.map Attempt.service = services
  history : ∃ news, v.history = w.history ++ news ∧
    (∀ moment ∈ news, moment.what.isOfStart = true) ∧
    (passedServices news).Perm ((attempts.filter Attempt.isReady).map Attempt.service)

lemma attempted_begin (services : List Service) (tick : Tick) (w : World σ) :
    Attempted services w (services.map fun service => ⟨service, .due tick .up⟩) w := by
  refine ⟨by simp [Function.comp_def], [], (List.append_nil _).symm, by simp, ?_⟩
  simp [List.filter_map, Function.comp_def, Attempt.isReady, Progress.isReady, passedServices]

lemma Attempted.make {services : List Service} {w v : World σ} {attempts : List Attempt}
    (h : Attempted services w attempts v) (runtime : Runtime σ) (interval began : Nat) {place : Nat}
    {a : Attempt} {tick : Tick} {step : StartStep} (ha : attempts[place]? = some a)
    (hd : a.progress = .due tick step) :
    Attempted services w
      (attempts.set place
        { a with progress := (Attempt.make runtime interval began a.service tick step v).1 })
      (Attempt.make runtime interval began a.service tick step v).2 := by
  obtain ⟨news, hh, hs, hp⟩ := h.history
  obtain ⟨more, hm, hsm, hpm⟩ := Attempt.make_history runtime interval began a.service tick step v
  rcases hmake : Attempt.make runtime interval began a.service tick step v with ⟨progress, u⟩
  rw [hmake] at hm hpm
  obtain ⟨hlt, hget⟩ := List.getElem?_eq_some_iff.mp ha
  obtain ⟨front, back, hsplit, _, hset⟩ :
      ∃ front back, attempts = front ++ attempts[place] :: back ∧ front.length = place ∧
        attempts.set place { a with progress } = front ++ { a with progress } :: back :=
    List.exists_of_set hlt
  rw [hget] at hsplit
  -- A step was due, so the service was not ready, and it is counted for the first time now.
  have hr : a.isReady = false := by
    unfold Attempt.isReady
    rw [hd]
    rfl
  rw [hset]
  refine ⟨?_, news ++ more, ?_, ?_, ?_⟩
  · rw [← h.services, hsplit, List.map_append, List.map_append, List.map_cons, List.map_cons]
  · rw [← List.append_assoc, ← hh]
    exact hm
  · intro moment hmem
    rcases List.mem_append.mp hmem with hmem | hmem
    · exact hs moment hmem
    · exact hsm moment hmem
  · rw [passedServices_append, hpm]
    have hbefore : attempts.filter Attempt.isReady =
        front.filter Attempt.isReady ++ back.filter Attempt.isReady := by
      rw [hsplit, List.filter_append, List.filter_cons_of_neg (by simp [hr])]
    rw [hbefore] at hp
    cases hready : progress.isReady with
    | false =>
      have hn : ({ a with progress } : Attempt).isReady = false := hready
      rw [List.filter_append, List.filter_cons_of_neg (by simp [hn])]
      simpa [hready] using hp
    | true =>
      have hn : ({ a with progress } : Attempt).isReady = true := hready
      rw [List.filter_append, List.filter_cons_of_pos hn]
      simp only [if_true, List.map_append, List.map_cons] at hp ⊢
      exact (hp.append_right _).trans
        ((List.perm_append_singleton _ _).trans List.perm_middle.symm)

lemma Attempted.run {services : List Service} {w v : World σ} {attempts : List Attempt}
    (h : Attempted services w attempts v) (runtime : Runtime σ) (interval began limit fuel : Nat) :
    Attempted services w (run runtime interval began limit fuel attempts v).1
      (run runtime interval began limit fuel attempts v).2 := by
  induction fuel generalizing attempts v with
  | zero => exact h
  | succ fuel ih =>
    unfold Startup.run
    split
    · exact h
    next place tick step hn =>
      obtain ⟨a, ha, hd⟩ := due_of_next? hn
      simp only [ha]
      exact ih (h.make runtime interval began ha hd)

lemma attempted_all (runtime : Runtime σ) (p : Patience) (services : List Service)
    (w : World σ) :
    ∃ attempts v, Attempted services w attempts v ∧
      (all runtime p services w).1 = attempts.map (Attempt.result p.window) ∧
      (all runtime p services w).2.history = v.history := by
  have h := (attempted_begin services ⟨w.now, 0⟩ w).run runtime p.interval w.now (w.now + p.window)
    (mostSteps w.checksAtOnce p services)
  refine ⟨_, _, h, rfl, ?_⟩
  unfold all
  dsimp only
  split <;> rfl

lemma graver_ne_none (first : Option Failure) (failure : Failure) :
    graver first failure ≠ none := by
  unfold graver
  split <;> simp

lemma eq_ok_of_failure?_eq_none {results : List (Except Failure Unit)}
    (h : failure? results = none) : ∀ result ∈ results, result = .ok () := by
  -- From the end, since a failure is judged by those before it.
  induction results using List.reverseRecOn with
  | nil => simp
  | append_singleton rest result ih =>
    unfold failure? at h ih
    rw [List.foldl_append] at h
    cases result with
    | ok _ =>
      intro result hm
      rcases List.mem_append.mp hm with hm | hm
      · exact ih h result hm
      · exact List.mem_singleton.mp hm
    | error e => exact (graver_ne_none _ e h).elim

end Startup

end Premerge
