import Premerge.Proofs.Job.Publication
import Premerge.Proofs.Job.Quiet
import Premerge.Proofs.Job.Stages
import Premerge.Proofs.Run.Telling
import Premerge.Proofs.Service.Session
import Premerge.Proofs.Tool.Table

namespace Premerge

open Premerge.World

variable {σ α : Type}

namespace World

lemma milestones_of_isOfRuntime {w v : World σ} (h : w.Extends (·.isOfRuntime) v) :
    v.milestones = w.milestones :=
  Extends.milestones <| h.mono fun _ hr =>
    Happening.milestone?_of_isAside (Happening.isAside_of_isOfRuntime hr)

end World

lemma Action.IsAside.milestones_of {a : Action σ α} (h : a.IsAside) {w v : World σ}
    {result : Except Failure α} (hp : a.perform w = (result, v)) : v.milestones = w.milestones := by
  have hm := h.milestones w
  rwa [hp] at hm

lemma Attempt.milestones_make (runtime : Runtime σ) (interval began : Nat) (service : Service)
    (tick : Tick) (step : StartStep) (w : World σ) :
    (make runtime interval began service tick step w).2.milestones = w.milestones := by
  cases step with
  | up =>
    exact (milestones_of_isOfRuntime (runtime.up_extends service _)).trans
      (milestones_note_of_none { w with now := tick.time } rfl)
  | granted => exact milestones_note_of_none { w with now := tick.time } rfl
  | check =>
    exact (milestones_of_isOfRuntime (runtime.check_extends service _)).trans
      (milestones_note_of_none { w with now := tick.time } rfl)
  | passed =>
    exact (milestones_note_of_none _ rfl).trans
      (milestones_note_of_none { w with now := tick.time } rfl)
  | failed e => rfl

namespace Startup

lemma milestones_run (runtime : Runtime σ) (interval began limit fuel : Nat)
    (attempts : List Attempt) (w : World σ) :
    (run runtime interval began limit fuel attempts w).2.milestones = w.milestones := by
  induction fuel generalizing attempts w with
  | zero => rfl
  | succ fuel ih =>
    rw [run]
    split
    · rfl
    · split
      · rfl
      · exact (ih _ _).trans (Attempt.milestones_make _ _ _ _ _ _ _)

lemma milestones_all (runtime : Runtime σ) (p : Patience) (services : List Service)
    (w : World σ) : (all runtime p services w).2.milestones = w.milestones := by
  rw [all]
  dsimp only
  split
  · exact milestones_run ..
  · exact milestones_run ..

end Startup

namespace Session

lemma milestones_takeDown (runtime : Runtime σ) (names : List String) (w : World σ) :
    ((takeDown runtime names).perform w).2.milestones = w.milestones := by
  rw [takeDown, Action.perform_bind, Action.perform_modify]
  exact (milestones_of_isOfRuntime (runtime.down_notes names _)).trans
    (milestones_note_of_none w rfl)

lemma milestones_clearUp (runtime : Runtime σ) (names : List String) (w : World σ) :
    ((clearUp runtime names).perform w).2.milestones =
      w.milestones ++ [.servicesStopped names] := by
  have hm := milestones_takeDown runtime names w
  rw [clearUp, Action.perform_bind, Action.perform_attempt]
  rcases hp : (takeDown runtime names).perform w with ⟨e | _, v⟩ <;> rw [hp] at hm
  · have he : (v.log (.startTeardownFailed e)).milestones = w.milestones :=
      (milestones_note_of_none v rfl).trans hm
    rw [← he]
    exact milestones_log _ (.servicesStopped names) rfl
  · rw [← hm]
    exact milestones_log v (.servicesStopped names) rfl

lemma milestones_start (runtime : Runtime σ) (p : Patience) {known : List Service}
    {names : List String} (hk : ∀ name ∈ names, name ∈ known.map Service.name) (w : World σ) :
    match (start runtime p known names).perform w with
    | (.ok session, v) => session.names = names ∧ v.milestones = w.milestones
    | (.error _, v) => v.milestones = w.milestones ++ [.servicesStopped names] := by
  obtain ⟨services, hf⟩ := findAll_of_subset hk
  have hm := Startup.milestones_all runtime p services w
  rw [perform_start runtime p hf]
  rcases Startup.failure? (Startup.all runtime p services w).1 with _ | e
  · exact ⟨rfl, hm⟩
  · rw [← hm]
    exact milestones_clearUp runtime names _

lemma milestones_stop (runtime : Runtime σ) (s : Session) (w : World σ) :
    ((s.stop runtime).perform w).2.milestones = w.milestones ++ [.servicesStopped s.names] := by
  have hm := milestones_takeDown runtime s.names w
  rw [stop, Action.perform_bind, Action.perform_attempt]
  rcases hp : (takeDown runtime s.names).perform w with ⟨result, v⟩
  rw [hp] at hm
  dsimp only
  rw [Action.perform_bind, Action.perform_log]
  dsimp only
  rw [Action.perform_ofExcept, ← hm]
  exact milestones_log v _ rfl

end Session

namespace Job

lemma milestones_stopServices (runtime : Runtime σ) (session : Session) (w : World σ) :
    ((stopServices runtime session).perform w).2.milestones =
      w.milestones ++ [.servicesStopped session.names] := by
  have hm := Session.milestones_stop runtime session w
  rw [stopServices, Action.perform_bind, Action.perform_attempt]
  rcases hp : (session.stop runtime).perform w with ⟨e | _, v⟩ <;> rw [hp] at hm
  · exact (milestones_note_of_none v rfl).trans hm
  · exact hm

def started (job : Job) : Event :=
  .jobStarted job.id job.headSha job.pr

lemma milestones_of_prepare {c : Config} {request : Request} {w v : World σ} {prepared : Prepared}
    (h : (prepare c request).perform w = (.ok prepared, v)) :
    v.milestones = w.milestones ++ [prepared.job.started] := by
  rw [prepare] at h
  obtain ⟨table, u, ht, h⟩ := Action.perform_bind_ok h
  obtain ⟨job, x, hj, h⟩ := Action.perform_bind_ok h
  obtain ⟨_, _, hg, h⟩ := Action.perform_bind_ok h
  obtain ⟨_, y, hl, h⟩ := Action.perform_bind_ok h
  obtain ⟨_, _, hc, h⟩ := Action.perform_bind_ok h
  obtain ⟨changes, _, hch, h⟩ := Action.perform_bind_ok h
  obtain ⟨reports, _, ho, h⟩ := Action.perform_bind_ok h
  cases h
  cases hg
  cases hl
  rw [(isAside_openReports job request).milestones_of ho,
    (isAside_classify job c).milestones_of hch, (isAside_checkMessage job _).milestones_of hc]
  refine (milestones_log x job.started rfl).trans ?_
  rw [(isAside_resolve request table.names).milestones_of hj,
    (Action.isAside_ofExcept c.toolTable).milestones_of ht]

lemma milestones_of_failed_prepare {c : Config} {request : Request} {w v : World σ} {e : Failure}
    (h : (prepare c request).perform w = (.error e, v)) :
    v.milestones = w.milestones ∨ ∃ job : Job, v.milestones = w.milestones ++ [job.started] := by
  rw [prepare] at h
  rcases Action.perform_bind_error h with h | ⟨table, u, ht, h⟩
  · exact .inl ((Action.isAside_ofExcept c.toolTable).milestones_of h)
  have hu := (Action.isAside_ofExcept c.toolTable).milestones_of ht
  rcases Action.perform_bind_error h with h | ⟨job, x, hj, h⟩
  · exact .inl (((isAside_resolve request table.names).milestones_of h).trans hu)
  have hx := (isAside_resolve request table.names).milestones_of hj
  rcases Action.perform_bind_error h with h | ⟨_, _, hg, h⟩
  · cases h
  cases hg
  rcases Action.perform_bind_error h with h | ⟨_, _, hl, h⟩
  · cases h
  cases hl
  have hrest := ((isAside_checkMessage job c.commit.maxLineLength).bind fun _ =>
    (isAside_classify job c).bind fun _ => (isAside_openReports job request).bind fun _ =>
      Action.isAside_pure _).milestones_of h
  refine .inr ⟨job, ?_⟩
  rw [hrest, ← hu, ← hx]
  exact milestones_log x job.started rfl

lemma milestones_of_conclude {c : Config} {request : Request} {job : Job} {began : Nat}
    {reports : Report.Directory} {results : Workplace.Results} {w v : World σ} {report : JobReport}
    (h : (conclude c request job began reports results).perform w = (.ok report, v)) :
    report.job = job ∧
      v.milestones = w.milestones ++ [.jobFinished job.id report.durationMs report.success] := by
  rw [conclude] at h
  obtain ⟨_, _, hw, h⟩ := Action.perform_bind_ok h
  obtain ⟨summary, _, ha, h⟩ := Action.perform_bind_ok h
  obtain ⟨path, x, hp, h⟩ := Action.perform_bind_ok h
  obtain ⟨_, _, hg, h⟩ := Action.perform_bind_ok h
  obtain ⟨_, _, hf, h⟩ := Action.perform_bind_ok h
  obtain ⟨_, _, hv, h⟩ := Action.perform_bind_ok h
  cases h
  cases hg
  cases hf
  cases hv
  refine ⟨rfl, (milestones_note_of_none _ rfl).trans ((milestones_log x _ rfl).trans ?_)⟩
  rw [(Report.Summary.isAside_publish _ _ _).milestones_of hp,
    (Report.Summary.isAside_announce _ _ _).milestones_of ha,
    (isAside_writeFragments _ _).milestones_of hw]

lemma milestones_of_failed_conclude {c : Config} {request : Request} {job : Job} {began : Nat}
    {reports : Report.Directory} {results : Workplace.Results} {w v : World σ} {e : Failure}
    (h : (conclude c request job began reports results).perform w = (.error e, v)) :
    v.milestones = w.milestones := by
  rw [conclude] at h
  rcases Action.perform_bind_error h with h | ⟨_, u, hw, h⟩
  · exact (isAside_writeFragments _ _).milestones_of h
  have hu := (isAside_writeFragments _ _).milestones_of hw
  rcases Action.perform_bind_error h with h | ⟨summary, x, ha, h⟩
  · exact ((Report.Summary.isAside_announce _ _ _).milestones_of h).trans hu
  have hx := ((Report.Summary.isAside_announce _ _ _).milestones_of ha).trans hu
  -- Behind the publication nothing fails.
  rcases Action.perform_bind_error h with h | ⟨path, _, _, h⟩
  · exact ((Report.Summary.isAside_publish _ _ _).milestones_of h).trans hx
  · cases h

def closeDown (c : Config) (runtime : Runtime σ) (request : Request) (prepared : Prepared)
    (session : Session) (results : Workplace.Results) : Action σ JobReport := do
  stopServices runtime session
  conclude c request prepared.job prepared.began prepared.place.reports results

lemma perform_closeDown (c : Config) (runtime : Runtime σ) (request : Request)
    (prepared : Prepared) (session : Session) (results : Workplace.Results) (w : World σ) :
    (closeDown c runtime request prepared session results).perform w =
      (conclude c request prepared.job prepared.began prepared.place.reports results).perform
        ((stopServices runtime session).perform w).2 := by
  rw [closeDown, Action.perform_bind, perform_stopServices]

lemma milestones_closeDown (c : Config) (runtime : Runtime σ) (request : Request)
    (prepared : Prepared) (session : Session) (results : Workplace.Results) (w : World σ) :
    match (closeDown c runtime request prepared session results).perform w with
    | (.ok report, v) => report.job = prepared.job ∧ report.outcomes = results.outcomes ∧
        v.milestones = w.milestones ++ [.servicesStopped session.names,
          .jobFinished prepared.job.id report.durationMs report.success]
    | (.error _, v) => v.milestones = w.milestones ++ [.servicesStopped session.names] := by
  have hm := milestones_stopServices runtime session w
  rw [perform_closeDown]
  rcases hc : (conclude c request prepared.job prepared.began prepared.place.reports
    results).perform ((stopServices runtime session).perform w).2 with ⟨e | report, v⟩
  · exact (milestones_of_failed_conclude hc).trans hm
  · obtain ⟨hj, hv⟩ := milestones_of_conclude hc
    refine ⟨hj, (report_of_conclude hc).1, ?_⟩
    rw [hv, hm, List.append_assoc, List.singleton_append]

end Job

namespace Config

/-- The log of a job that gets to its tools tells its start, what came of each tool, the end of its
services, and its own end if it has a report. It agrees with this report, in whatever order the tools are
over and wherever they are cut off. -/
theorem log_agrees_with_report (c : Config) (runtime : Runtime σ) (request : Request)
    (w : World σ) :
    match (Job.prepare c request).perform w with
    | (.error e, v) => (c.run runtime request).perform w = (.error e, v) ∧
        (v.milestones = w.milestones ∨ ∃ job : Job, v.milestones = w.milestones ++ [job.started])
    | (.ok prepared, first) =>
      match (Session.start runtime (Job.patience c) c.services.required
          c.services.names).perform first with
      | (.error e, v) => (c.run runtime request).perform w = (.error e, v) ∧
          v.milestones = w.milestones ++ [prepared.job.started, .servicesStopped c.services.names]
      | (.ok session, u) =>
        let ran := prepared.place.runTools c.parallelTools (some (u.now + c.jobTimeoutMs)) c.tools u
        (c.run runtime request).perform w =
          (Job.closeDown c runtime request prepared session ran.1).perform ran.2 ∧
        prepared.place.ComesTo c.tools u ran.1.outcomes ran.2 ∧
        (c.tools.map Tool.name).Nodup ∧
        ∀ results x, prepared.place.ComesTo c.tools u results.outcomes x →
          List.Forall₂ (fun tool o => o.IsOf tool) c.tools results.outcomes ∧
          ∃ told, Event.Tell told results.outcomes ∧
            match (Job.closeDown c runtime request prepared session results).perform x with
            | (.ok report, v) => report.job = prepared.job ∧ report.outcomes = results.outcomes ∧
                v.milestones = w.milestones ++ prepared.job.started :: told ++
                  [.servicesStopped c.services.names,
                    .jobFinished prepared.job.id report.durationMs report.success]
            | (.error _, v) => v.milestones = w.milestones ++ prepared.job.started :: told ++
                [.servicesStopped c.services.names] := by
  have hrun := c.perform_run runtime request w
  rcases hp : (Job.prepare c request).perform w with ⟨e | prepared, first⟩ <;> rw [hp] at hrun
  · exact ⟨hrun, Job.milestones_of_failed_prepare hp⟩
  have hfirst := Job.milestones_of_prepare hp
  have hstart := Session.milestones_start runtime (Job.patience c) c.services_known first
  dsimp only at hrun ⊢
  rcases hs : (Session.start runtime (Job.patience c) c.services.required
    c.services.names).perform first with ⟨e | session, u⟩ <;> rw [hs] at hrun hstart
  · refine ⟨hrun, hstart.trans ?_⟩
    rw [hfirst, List.append_assoc, List.singleton_append]
  obtain ⟨hnames, hu⟩ := hstart
  obtain ⟨table, ht, _, _⟩ := Job.known_of_prepare hp
  have hnodup := ToolTable.nodup_names_of_ofList ht
  refine ⟨hrun.trans (Job.perform_closeDown ..).symm, prepared.place.comesTo_runTools .., hnodup,
    fun results x hx => ?_⟩
  obtain ⟨hof, told, hm, htold⟩ := hx.told hnodup
  have hbefore : x.milestones = w.milestones ++ prepared.job.started :: told := by
    rw [hm, hu, hfirst, List.append_assoc, List.singleton_append]
  refine ⟨hof, told, htold, ?_⟩
  have hclose := Job.milestones_closeDown c runtime request prepared session results x
  rw [hnames, hbefore] at hclose
  exact hclose

end Config

example : (lintRun none).2.milestones =
    [.jobStarted "00000000-0000-4000-8000-000000000000" "a" none, .toolFinished "lint" 0 0 false,
      .servicesStopped [], .jobFinished "00000000-0000-4000-8000-000000000000" 0 true] := by
  decide +kernel

end Premerge
