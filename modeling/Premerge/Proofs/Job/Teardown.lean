import Premerge.Proofs.Job.Quiet
import Premerge.Proofs.Job.Stages
import Premerge.Proofs.Run.History
import Premerge.Proofs.Service.Recording

namespace Premerge

open Premerge.World

variable {σ : Type}

/-- The calls of a runtime in a job that gets to the start of its services, and what else happens. First
it is asked about services. Then tools run, but only if every service has come up and has been found
ready. The last call takes all services down, and behind it there are only events and programs. -/
structure TakenDownOnce (c : ServicesConfig) (past news : List Moment) (calls : List Call)
    (start tools after : List Moment) (time : Nat) (asked : List Call) : Prop where
  happens : news = start ++ tools ++ ⟨time, .downAsked c.names⟩ :: after
  called : calls = asked ++
    [⟨past ++ start ++ tools ++ [⟨time, .downAsked c.names⟩], .down c.names⟩]
  ofStart : ∀ moment ∈ start, moment.what.isOfStart = true
  ofTools : ∀ moment ∈ tools, moment.what.isOfTools = true
  quiet : ∀ moment ∈ after, moment.what.isQuiet = true
  questions : ∀ call ∈ asked, call.isDown = false ∧ call.past <+: past ++ start
  ready : tools ≠ [] → ((passedServices start).map Service.name).Perm c.names ∧
    ∀ service ∈ c.required, c.IsInForce service → ReadiedIn asked service

lemma World.TakenDown.once {c : ServicesConfig} {runtime : Runtime σ} {w u v : World (Recorded σ)}
    {start tools : List Moment} {asked : List Call} (h : u.TakenDown runtime.recorded c.names v)
    (hh : u.history = w.history ++ start ++ tools)
    (hc : u.services.calls = w.services.calls ++ asked)
    (hstart : ∀ moment ∈ start, moment.what.isOfStart = true)
    (htools : ∀ moment ∈ tools, moment.what.isOfTools = true)
    (hasked : ∀ call ∈ asked, call.isDown = false ∧ call.past <+: w.history ++ start)
    (hready : tools ≠ [] → ((passedServices start).map Service.name).Perm c.names ∧
      ∀ service ∈ c.required, c.IsInForce service → ReadiedIn asked service) :
    ∃ news calls, v.history = w.history ++ news ∧ v.services.calls = w.services.calls ++ calls ∧
      ∃ start tools after time asked,
        TakenDownOnce c w.history news calls start tools after time asked := by
  obtain ⟨rest, hrest, hquiet⟩ := h.history
  refine ⟨_, _, ?_, ?_, start, tools, rest, u.now, asked,
    ⟨rfl, rfl, hstart, htools, hquiet, hasked, hready⟩⟩
  · rw [hrest, hh]
    simp only [List.append_assoc]
  · rw [h.record, hc, hh, List.append_assoc]

namespace Job

lemma takesDown_stopServices (runtime : Runtime σ) (session : Session) :
    (stopServices runtime session).TakesDown runtime session.names := by
  refine (Session.takesDown_stop runtime session).attempt.bind fun result => ?_
  cases result with
  | ok _ => exact Action.isQuiet_pure _
  | error e => exact Action.isQuiet_log _

end Job

/-- Whatever comes of a job, its services are taken down if it gets to their start, and else its
runtime is not called. -/
theorem Config.takenDownOnce (c : Config) (runtime : Runtime σ) (request : Request)
    (w : World (Recorded σ)) :
    ∃ v news calls, ((c.run runtime.recorded request).perform w).2 = v ∧
      v.history = w.history ++ news ∧ v.services.calls = w.services.calls ++ calls ∧
      match (Job.prepare c request).perform w with
      | (.error _, _) => (∀ moment ∈ news, moment.what.isQuiet = true) ∧ calls = []
      | (.ok _, _) => ∃ start tools after time asked,
        TakenDownOnce c.services w.history news calls start tools after time asked := by
  obtain ⟨first, hf, hq⟩ := (Job.isQuiet_prepare c request w).history
  have hservices := (Job.isQuiet_prepare c request w).services
  rw [perform_run]
  rcases hprep : (Job.prepare c request).perform w with ⟨e | prepared, u⟩ <;>
    rw [hprep] at hf hservices <;> dsimp only at hf hservices ⊢
  · exact ⟨u, first, [], rfl, hf, by rw [hservices, List.append_nil], hq, rfl⟩
  obtain ⟨services, hfind⟩ := Session.findAll_of_subset c.services_known
  obtain ⟨before, hb, hs, hpassed⟩ :=
    Session.all_history runtime.recorded (Job.patience c) hfind u
  obtain ⟨asked, hc, hasked, hanswered⟩ := Startup.asking_all runtime (Job.patience c) services u
  have hstart : ∀ moment ∈ first ++ before, moment.what.isOfStart = true := by
    intro moment hm
    rcases List.mem_append.mp hm with hm | hm
    · exact Happening.isOfStart_of_isQuiet (hq moment hm)
    · exact hs moment hm
  rw [Session.perform_start runtime.recorded (Job.patience c) hfind]
  generalize Startup.all runtime.recorded (Job.patience c) services u = started at *
  rw [hf, List.append_assoc] at hb
  rw [hservices] at hc
  have hpast : ∀ call ∈ asked, call.isDown = false ∧ call.past <+: w.history ++ (first ++ before) :=
    fun call hm => ⟨(hasked call hm).1, hb ▸ (hasked call hm).2.2⟩
  rcases hfail : Startup.failure? started.1 with _ | e
  · dsimp only
    have hrun := prepared.place.hasRunTools c.parallelTools
      (some (started.2.now + c.jobTimeoutMs)) c.tools started.2
    generalize prepared.place.runTools c.parallelTools (some (started.2.now + c.jobTimeoutMs))
      c.tools started.2 = ran at hrun ⊢
    obtain ⟨tools, htools, hran⟩ := World.ExtendsBeside.history hrun
    have hdown : ran.2.TakenDown runtime.recorded c.services.names _ := World.ExtendsBeside.trans
      (Job.takesDown_stopServices runtime.recorded ⟨c.services.names⟩ ran.2)
      (Job.isQuiet_conclude c request prepared.job prepared.began prepared.place.reports ran.1 _)
    have hready : ((passedServices (first ++ before)).map Service.name).Perm c.services.names := by
      rw [passedServices_append, passedServices_of_isQuiet hq, List.nil_append]
      exact hpassed hfail
    obtain ⟨news, calls, honce⟩ := hdown.once (by rw [htools, hb])
      (by rw [World.ExtendsBeside.services hrun, hc]) hstart hran hpast fun _ => ⟨hready,
        fun service hm hforce =>
          hanswered hfail service ((ServicesConfig.mem_of_findAll hfind).mpr ⟨hm, hforce⟩)⟩
    exact ⟨_, news, calls, rfl, honce⟩
  · obtain ⟨news, calls, honce⟩ :=
      (Session.takesDown_clearUp runtime.recorded c.services.names started.2).once
        (hb.trans (List.append_nil _).symm) hc hstart (by simp) hpast fun h => absurd rfl h
    exact ⟨_, news, calls, rfl, honce⟩

end Premerge
