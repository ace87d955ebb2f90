import Premerge.Proofs.Service.Readiness

/-! Every runtime can keep a record of its calls. While services start, it is asked about them only; if
one is ready at the end, one call has brought it up and a later one has found it ready. -/

namespace Premerge

open Premerge.World

variable {σ τ : Type}

inductive Question where
  | up (service : Service) (reply : Reply Unit)
  | check (service : Service) (reply : Reply Bool)
  | down (names : List String)

structure Call where
  past : List Moment
  question : Question

namespace Call

def isDown (call : Call) : Bool :=
  match call.question with
  | .down _ => true
  | _ => false

def BringsUp (call : Call) (service : Service) : Prop :=
  ∃ reply, call.question = .up service reply ∧ reply.result? = some (.ok ())

def FindsReady (call : Call) (service : Service) : Prop :=
  ∃ reply, call.question = .check service reply ∧ reply.result? = some (.ok true)

end Call

structure Recorded (σ : Type) where
  services : σ
  calls : List Call

namespace World

def withServices (w : World σ) (services : τ) : World τ :=
  { w with services }

def unrecorded (w : World (Recorded σ)) : World σ :=
  w.withServices w.services.services

def record (w : World (Recorded σ)) (question : Question) (v : World σ) : World (Recorded σ) :=
  v.withServices ⟨v.services, w.services.calls ++ [⟨w.history, question⟩]⟩

end World

def Runtime.recorded (runtime : Runtime σ) : Runtime (Recorded σ) where
  up service w :=
    let (reply, v) := runtime.up service w.unrecorded
    (reply, w.record (.up service reply) v)
  check service w :=
    let (reply, v) := runtime.check service w.unrecorded
    (reply, w.record (.check service reply) v)
  down names w :=
    let (result, v) := (runtime.down names).perform w.unrecorded
    (result, w.record (.down names) v)
  up_extends service w := runtime.up_extends service w.unrecorded
  check_extends service w := runtime.check_extends service w.unrecorded
  down_notes names w := runtime.down_notes names w.unrecorded

def ReadiedIn (calls : List Call) (service : Service) : Prop :=
  ∃ up check, [up, check].Sublist calls ∧ up.BringsUp service ∧ check.FindsReady service

def AnsweredIn (calls : List Call) (service : Service) : Progress → Prop
  | .due _ .granted | .due _ .check => ∃ call ∈ calls, call.BringsUp service
  | .due _ .passed | .settled (.ok ()) => ReadiedIn calls service
  | _ => True

section

variable {calls : List Call} {service : Service} {progress : Progress}

lemma ReadiedIn.append (h : ReadiedIn calls service) (more : List Call) :
    ReadiedIn (calls ++ more) service := by
  obtain ⟨up, check, hs, hup, hready⟩ := h
  exact ⟨up, check, hs.trans (List.sublist_append_left _ _), hup, hready⟩

lemma AnsweredIn.append (h : AnsweredIn calls service progress) (more : List Call) :
    AnsweredIn (calls ++ more) service progress := by
  rw [AnsweredIn.eq_def] at h ⊢
  split at h
  · obtain ⟨call, hm, hup⟩ := h
    exact ⟨call, List.mem_append_left _ hm, hup⟩
  · obtain ⟨call, hm, hup⟩ := h
    exact ⟨call, List.mem_append_left _ hm, hup⟩
  · exact ReadiedIn.append h more
  · exact ReadiedIn.append h more
  · trivial

lemma answeredIn_afterUp (calls : List Call) {call : Call} {reply : Reply Unit}
    (hq : call.question = .up service reply) (tick : Tick) :
    AnsweredIn (calls ++ [call]) service (Attempt.afterReply Attempt.afterUp tick reply) := by
  rcases Attempt.afterUp_cases tick reply with h | ⟨_, _, ⟨hr, h⟩ | ⟨_, _, h⟩⟩ <;> rw [h]
  · trivial
  · exact ⟨call, by simp, reply, hq, hr⟩
  · trivial

lemma answeredIn_afterCheck {call : Call} {reply : Reply Bool}
    (hup : ∃ other ∈ calls, other.BringsUp service) (hq : call.question = .check service reply)
    (interval : Nat) (tick : Tick) :
    AnsweredIn (calls ++ [call]) service
      (Attempt.afterReply (Attempt.afterCheck interval) tick reply) := by
  obtain ⟨up, hm, hu⟩ := hup
  rcases Attempt.afterCheck_cases interval tick reply with
    h | ⟨_, _, ⟨hr, h⟩ | ⟨_, h⟩ | ⟨_, _, h⟩⟩ <;> rw [h]
  · trivial
  · exact ⟨up, call, (List.singleton_sublist.mpr hm).append (.refl [call]), hu, reply, hq, hr⟩
  · exact ⟨up, List.mem_append_left _ hm, hu⟩
  · trivial

end

namespace Attempt

lemma recorded_between {w v : World (Recorded σ)} (what : Happening)
    (h : (w.note what).Extends (fun what => what.isOfRuntime = true) v) :
    w.history <+: (w.note what).history ∧ (w.note what).history <+: v.history := by
  obtain ⟨news, hn, _⟩ := h.history
  exact ⟨⟨_, (World.history_note w what).symm⟩, news, hn.symm⟩

lemma make_recorded (runtime : Runtime σ) (interval began : Nat) {service : Service} {tick : Tick}
    {step : StartStep} {calls : List Call} (w : World (Recorded σ))
    (ha : AnsweredIn calls service (.due tick step)) :
    ∃ more, (make runtime.recorded interval began service tick step w).2.services.calls =
        w.services.calls ++ more ∧
      (∀ call ∈ more, call.isDown = false ∧ w.history <+: call.past ∧
        call.past <+: (make runtime.recorded interval began service tick step w).2.history) ∧
      AnsweredIn (calls ++ more) service
        (make runtime.recorded interval began service tick step w).1 := by
  have hnone : ∀ progress, AnsweredIn calls service progress →
      AnsweredIn (calls ++ []) service progress := fun _ h => h.append []
  cases step with
  | up =>
    refine ⟨[_], rfl, ?_, answeredIn_afterUp calls rfl tick⟩
    rw [List.forall_mem_singleton]
    exact ⟨rfl, recorded_between (w := { w with now := tick.time }) _
      (runtime.recorded.up_extends service _)⟩
  | granted => exact ⟨[], (List.append_nil _).symm, by simp, hnone _ ha⟩
  | check =>
    refine ⟨[_], rfl, ?_, answeredIn_afterCheck ha rfl interval tick⟩
    rw [List.forall_mem_singleton]
    exact ⟨rfl, recorded_between (w := { w with now := tick.time }) _
      (runtime.recorded.check_extends service _)⟩
  | passed => exact ⟨[], (List.append_nil _).symm, by simp, hnone _ ha⟩
  | failed e => exact ⟨[], (List.append_nil _).symm, by simp, trivial⟩

end Attempt

namespace Startup

/-- What holds while services start and their runtime keeps a record: all calls are questions that were
asked in this start, and what is known about the services has been answered. -/
structure Asking (w : World (Recorded σ)) (attempts : List Attempt) (v : World (Recorded σ))
    (calls : List Call) : Prop where
  record : v.services.calls = w.services.calls ++ calls
  history : w.history <+: v.history
  questions : ∀ call ∈ calls, call.isDown = false ∧ w.history <+: call.past ∧
    call.past <+: v.history
  answered : ∀ a ∈ attempts, AnsweredIn calls a.service a.progress

lemma asking_begin (services : List Service) (tick : Tick) (w : World (Recorded σ)) :
    Asking w (services.map fun service => ⟨service, .due tick .up⟩) w [] := by
  refine ⟨(List.append_nil _).symm, List.prefix_rfl, by simp, fun a hm => ?_⟩
  obtain ⟨service, _, rfl⟩ := List.mem_map.mp hm
  trivial

lemma Asking.make {w v : World (Recorded σ)} {attempts : List Attempt} {calls : List Call}
    (h : Asking w attempts v calls) (runtime : Runtime σ) (interval began : Nat) {place : Nat}
    {a : Attempt} {tick : Tick} {step : StartStep} (ha : attempts[place]? = some a)
    (hd : a.progress = .due tick step) :
    ∃ more, Asking w
      (attempts.set place
        { a with progress :=
          (Attempt.make runtime.recorded interval began a.service tick step v).1 })
      (Attempt.make runtime.recorded interval began a.service tick step v).2 (calls ++ more) := by
  obtain ⟨more, hc, hq, hanswered⟩ := Attempt.make_recorded runtime interval began v
    (hd ▸ h.answered a (List.mem_of_getElem? ha))
  obtain ⟨news, hh, _⟩ := Attempt.make_history runtime.recorded interval began a.service tick step v
  have hv : v.history <+:
      (Attempt.make runtime.recorded interval began a.service tick step v).2.history := ⟨news, hh.symm⟩
  refine ⟨more, by rw [hc, h.record, List.append_assoc], h.history.trans hv, ?_, ?_⟩
  · intro call hm
    rcases List.mem_append.mp hm with hm | hm
    · obtain ⟨hdown, hpast, hlater⟩ := h.questions call hm
      exact ⟨hdown, hpast, hlater.trans hv⟩
    · obtain ⟨hdown, hpast, hlater⟩ := hq call hm
      exact ⟨hdown, h.history.trans hpast, hlater⟩
  · intro other hm
    rcases List.mem_or_eq_of_mem_set hm with hm | rfl
    · exact (h.answered other hm).append more
    · exact hanswered

lemma Asking.run {w v : World (Recorded σ)} {attempts : List Attempt} {calls : List Call}
    (h : Asking w attempts v calls) (runtime : Runtime σ) (interval began limit fuel : Nat) :
    ∃ calls, Asking w (run runtime.recorded interval began limit fuel attempts v).1
      (run runtime.recorded interval began limit fuel attempts v).2 calls := by
  induction fuel generalizing attempts v calls with
  | zero => exact ⟨calls, h⟩
  | succ fuel ih =>
    unfold Startup.run
    split
    · exact ⟨calls, h⟩
    next place tick step hn =>
      obtain ⟨a, ha, hd⟩ := due_of_next? hn
      obtain ⟨more, hm⟩ := h.make runtime interval began ha hd
      simp only [ha]
      exact ih hm

lemma asking_all (runtime : Runtime σ) (p : Patience) (services : List Service)
    (w : World (Recorded σ)) :
    ∃ calls, (all runtime.recorded p services w).2.services.calls = w.services.calls ++ calls ∧
      (∀ call ∈ calls, call.isDown = false ∧ w.history <+: call.past ∧
        call.past <+: (all runtime.recorded p services w).2.history) ∧
      (failure? (all runtime.recorded p services w).1 = none →
        ∀ service ∈ services, ReadiedIn calls service) := by
  obtain ⟨calls, h⟩ := (asking_begin services ⟨w.now, 0⟩ w).run runtime p.interval w.now
    (w.now + p.window) (mostSteps w.checksAtOnce p services)
  obtain ⟨now, hv⟩ := all_world runtime.recorded p services w
  rw [hv]
  refine ⟨calls, h.record, h.questions, fun hnone service hm => ?_⟩
  obtain ⟨a, ha, rfl, hp⟩ := settled_of_all hnone hm
  have hanswered := h.answered a ha
  rw [hp] at hanswered
  exact hanswered

end Startup

lemma World.TakenDown.record {runtime : Runtime σ} {names : List String}
    {w v : World (Recorded σ)} (h : w.TakenDown runtime.recorded names v) :
    v.services.calls = w.services.calls ++
      [⟨w.history ++ [⟨w.now, .downAsked names⟩], .down names⟩] := by
  rw [ExtendsBeside.services h, Session.takeDown, Action.perform_bind, Action.perform_modify,
    ← history_note]
  rfl

end Premerge
