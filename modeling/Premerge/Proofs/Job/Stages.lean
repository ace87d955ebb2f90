import Premerge.Job.Validation
import Premerge.Proofs.Report.Creating

namespace Premerge

open Premerge.World

variable {σ : Type}

namespace Job

lemma known_of_prepare {c : Config} {request : Request} {w v : World σ} {prepared : Prepared}
    (h : (prepare c request).perform w = (.ok prepared, v)) :
    ∃ table, c.toolTable = .ok table ∧ prepared.tools = table.tools ∧
      prepared.place.reports = ⟨request.reports⟩ := by
  unfold prepare at h
  obtain ⟨table, _, ht, h⟩ := Action.perform_bind_ok h
  obtain ⟨job, _, _, h⟩ := Action.perform_bind_ok h
  obtain ⟨_, _, _, h⟩ := Action.perform_bind_ok h
  obtain ⟨_, _, _, h⟩ := Action.perform_bind_ok h
  obtain ⟨_, _, _, h⟩ := Action.perform_bind_ok h
  obtain ⟨changes, _, _, h⟩ := Action.perform_bind_ok h
  obtain ⟨reports, _, hr, h⟩ := Action.perform_bind_ok h
  cases h
  rw [Action.perform_ofExcept] at ht
  unfold openReports at hr
  obtain ⟨made, _, hm, hr⟩ := Action.perform_bind_ok hr
  obtain ⟨_, _, _, hr⟩ := Action.perform_bind_ok hr
  cases hr
  exact ⟨table, congrArg Prod.fst ht, rfl, (Report.Directory.path_of_create hm).1⟩

lemma tools_of_prepare {c : Config} {request : Request} {w v : World σ} {prepared : Prepared}
    (h : (prepare c request).perform w = (.ok prepared, v)) : prepared.tools = c.tools := by
  obtain ⟨table, ht, hp, _⟩ := known_of_prepare h
  rw [hp, ToolTable.tools_of_ofList ht]

lemma perform_runTools (c : Config) (tools : List Tool) (place : Workplace) (w : World σ) :
    (runTools c tools place).perform w =
      (.ok (place.runTools c.parallelTools (some (w.now + c.jobTimeoutMs)) tools w).1,
        (place.runTools c.parallelTools (some (w.now + c.jobTimeoutMs)) tools w).2) := rfl

lemma perform_stopServices (runtime : Runtime σ) (session : Session) (w : World σ) :
    (stopServices runtime session).perform w =
      (.ok (), ((stopServices runtime session).perform w).2) := by
  rw [stopServices, Action.perform_bind, Action.perform_attempt]
  rcases (session.stop runtime).perform w with ⟨_ | _, v⟩ <;> rfl

def deadlineOf (c : Config) (exceeded : Bool) : Option Nat :=
  if exceeded then some c.jobTimeoutSecs else none

lemma report_of_conclude {c : Config} {request : Request} {job : Job} {began : Nat}
    {reports : Report.Directory} {results : Workplace.Results} {w v : World σ} {report : JobReport}
    (h : (conclude c request job began reports results).perform w = (.ok report, v)) :
    report.outcomes = results.outcomes ∧ report.deadlineExceeded = results.deadlineExceeded ∧
      report.verdict =
        .ofOutcomes results.outcomes (deadlineOf c results.deadlineExceeded) ∧
      report.success = report.verdict.passed := by
  unfold conclude at h
  obtain ⟨_, _, _, h⟩ := Action.perform_bind_ok h
  obtain ⟨summary, _, _, h⟩ := Action.perform_bind_ok h
  obtain ⟨path, _, _, h⟩ := Action.perform_bind_ok h
  obtain ⟨_, _, _, h⟩ := Action.perform_bind_ok h
  obtain ⟨_, _, _, h⟩ := Action.perform_bind_ok h
  obtain ⟨_, _, _, h⟩ := Action.perform_bind_ok h
  cases h
  exact ⟨rfl, rfl, rfl, rfl⟩

end Job

namespace Config

lemma services_known (c : Config) :
    ∀ name ∈ c.services.names, name ∈ c.services.required.map Service.name :=
  fun _ hm => hm

/-- A job is its stages, one after the other. Once its services are ready, all that can still fail
is to conclude it. -/
lemma perform_run (c : Config) (runtime : Runtime σ) (request : Request) (w : World σ) :
    (c.run runtime request).perform w =
      match (Job.prepare c request).perform w with
      | (.error e, v) => (.error e, v)
      | (.ok prepared, v) =>
        match (Session.start runtime (Job.patience c) c.services.required
            c.services.names).perform v with
        | (.error e, u) => (.error e, u)
        | (.ok session, u) =>
          let ran := prepared.place.runTools c.parallelTools (some (u.now + c.jobTimeoutMs)) c.tools u
          (Job.conclude c request prepared.job prepared.began prepared.place.reports ran.1).perform
            ((Job.stopServices runtime session).perform ran.2).2 := by
  rw [run, Action.perform_bind]
  rcases hp : (Job.prepare c request).perform w with ⟨e | prepared, v⟩
  · rfl
  dsimp only
  rw [Action.perform_bind]
  rcases (Session.start runtime (Job.patience c) c.services.required
    c.services.names).perform v with ⟨e | session, u⟩
  · rfl
  dsimp only
  rw [Action.perform_bind, Job.perform_runTools, Job.tools_of_prepare hp]
  dsimp only
  rw [Action.perform_bind]
  rw [Job.perform_stopServices]

lemma stages_of_run {c : Config} {runtime : Runtime σ} {request : Request} {w v : World σ}
    {report : JobReport} (h : (c.run runtime request).perform w = (.ok report, v)) :
    ∃ prepared first session u, (Job.prepare c request).perform w = (.ok prepared, first) ∧
      (Session.start runtime (Job.patience c) c.services.required c.services.names).perform first =
        (.ok session, u) ∧
      let ran := prepared.place.runTools c.parallelTools (some (u.now + c.jobTimeoutMs)) c.tools u
      (Job.conclude c request prepared.job prepared.began prepared.place.reports ran.1).perform
        ((Job.stopServices runtime session).perform ran.2).2 = (.ok report, v) := by
  rw [perform_run] at h
  rcases hp : (Job.prepare c request).perform w with ⟨e | prepared, first⟩ <;> rw [hp] at h
  · cases h
  dsimp only at h
  rcases hs : (Session.start runtime (Job.patience c) c.services.required
    c.services.names).perform first with ⟨e | session, u⟩ <;> rw [hs] at h
  · cases h
  exact ⟨prepared, first, session, u, rfl, hs, h⟩

lemma report_of_run {c : Config} {runtime : Runtime σ} {request : Request}
    {w v : World σ} {report : JobReport}
    (h : (c.run runtime request).perform w = (.ok report, v)) :
    ∃ (place : Workplace) (u : World σ),
      let results :=
        (place.runTools c.parallelTools (some (u.now + c.jobTimeoutMs)) c.tools u).1
      report.outcomes = results.outcomes ∧ report.deadlineExceeded = results.deadlineExceeded ∧
        report.verdict =
          .ofOutcomes results.outcomes (Job.deadlineOf c results.deadlineExceeded) ∧
        report.success = report.verdict.passed := by
  obtain ⟨prepared, _, _, u, _, _, hc⟩ := stages_of_run h
  exact ⟨prepared.place, u, Job.report_of_conclude hc⟩

end Config

def World.Programs.withRepository (programs : Programs) : Programs := fun call =>
  if call.name = "git" then
    some ⟨if call.arguments.head? = some "diff" then [] else [.write .output [97, 10]], .exit 0, 0⟩
  else programs call

end Premerge
