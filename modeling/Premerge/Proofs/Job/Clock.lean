import Premerge.Proofs.Job.Failing
import Premerge.Proofs.Job.Skipping
import Premerge.Proofs.Run.Clock
import Premerge.Proofs.Service.Window
import Premerge.Service.Memory

/-! The time of a job is measured twice: its services have to be ready within it, and its tools have
to be over within as much time again. -/

namespace Premerge

open Premerge.World

variable {σ α β : Type}

namespace Action

def GoesOn (a : Action σ α) : Prop :=
  ∀ w : World σ, w.now ≤ (a.perform w).2.now

namespace GoesOn

lemma bind {a : Action σ α} {f : α → Action σ β} (h : a.GoesOn) (hf : ∀ x, (f x).GoesOn) :
    (a >>= f).GoesOn := by
  intro w
  have hw := h w
  rw [perform_bind]
  rcases hp : a.perform w with ⟨e | x, v⟩ <;> rw [hp] at hw
  · exact hw
  · exact hw.trans (hf x v)

lemma pure (x : α) : (pure x : Action σ α).GoesOn :=
  fun _ => le_rfl

lemma throw (e : Failure) : (throw e : Action σ α).GoesOn :=
  fun _ => le_rfl

lemma log (event : Event) : (log event : Action σ Unit).GoesOn :=
  fun _ => le_rfl

lemma ofExcept (result : Except Failure α) : (ofExcept result : Action σ α).GoesOn := by
  intro w
  rw [perform_ofExcept]

lemma changeFiles (fault : SystemError → Failure)
    (change : FileTree → Except SystemError FileTree) :
    (changeFiles fault change : Action σ Unit).GoesOn := by
  intro w
  rw [perform_changeFiles]
  split <;> exact le_rfl

lemma runCommand (fault : SystemError → Failure) (c : Command) :
    (runCommand fault c : Action σ Behaviour).GoesOn := by
  intro w
  rw [perform_runCommand]
  split
  · exact le_rfl
  next behaviour v hs =>
    obtain ⟨_, rfl⟩ := Workplace.start_ok hs
    exact Nat.le_add_right _ _

end GoesOn

end Action

open Premerge.Action

namespace Repository

lemma goesOn_ask (repository : Path) (arguments : List String) :
    (ask repository arguments : Action σ _).GoesOn := by
  refine (GoesOn.runCommand _ _).bind fun behaviour => ?_
  split
  · exact .pure _
  · exact .throw _

lemma goesOn_changedFiles (repository : Path) (base head : String) :
    (changedFiles repository base head : Action σ _).GoesOn :=
  ((goesOn_ask _ _).bind fun _ => .pure _).bind fun _ =>
    (goesOn_ask _ _).bind fun _ => .ofExcept _

end Repository

lemma Report.Directory.goesOn_create (path : Path) : (create path : Action σ _).GoesOn := by
  intro w
  rw [perform_create]
  split
  · exact le_rfl
  · split <;> exact le_rfl

namespace Job

lemma goesOn_checkMessage (job : Job) (limit : Nat) :
    (job.checkMessage limit : Action σ Unit).GoesOn :=
  ((Repository.goesOn_ask _ _).bind fun _ => .pure _).bind fun _ => .ofExcept _

lemma goesOn_classify (job : Job) (c : Config) : (job.classify c : Action σ _).GoesOn :=
  (Repository.goesOn_changedFiles _ _ _).bind fun _ =>
    (GoesOn.ofExcept _).bind fun _ => (GoesOn.log _).bind fun _ => .pure _

lemma goesOn_openReports (job : Job) (request : Request) :
    (job.openReports request : Action σ _).GoesOn :=
  (Report.Directory.goesOn_create _).bind fun _ =>
    ((GoesOn.changeFiles _ _).bind fun _ => .pure _).bind fun _ => .pure _

lemma began_of_prepare {c : Config} {request : Request} {w v : World σ} {prepared : Prepared}
    (h : (prepare c request).perform w = (.ok prepared, v)) : prepared.began ≤ v.now := by
  unfold prepare at h
  obtain ⟨table, _, _, h⟩ := perform_bind_ok h
  obtain ⟨job, u, _, h⟩ := perform_bind_ok h
  obtain ⟨began, _, hb, h⟩ := perform_bind_ok h
  have hrest := ((GoesOn.log (.jobStarted job.id job.headSha job.pr)).bind fun _ =>
    (goesOn_checkMessage job c.commit.maxLineLength).bind fun _ =>
      (goesOn_classify job c).bind fun changes =>
        (goesOn_openReports job request).bind fun reports =>
          GoesOn.pure (σ := σ) (Prepared.mk table.tools job began.now
            ⟨reports, request.repository, changes⟩)) u
  cases hb
  rw [h] at hrest
  obtain ⟨_, _, _, h⟩ := perform_bind_ok h
  obtain ⟨_, _, _, h⟩ := perform_bind_ok h
  obtain ⟨_, _, _, h⟩ := perform_bind_ok h
  obtain ⟨_, _, _, h⟩ := perform_bind_ok h
  cases h
  exact hrest

end Job

def Happening.isOfProgram : Happening → Bool
  | .toolStarted _ | .toolEnded _ => true
  | _ => false

lemma Happening.isOfProgram_of_isOfStart {what : Happening} (h : what.isOfStart = true) :
    what.isOfProgram = false := by
  cases what <;> first | rfl | cases h

lemma Happening.isOfProgram_of_isQuiet {what : Happening} (h : what.isQuiet = true) :
    what.isOfProgram = false :=
  isOfProgram_of_isOfStart (isOfStart_of_isQuiet h)

def RunsNoTool (moments : List Moment) : Prop :=
  ∀ moment ∈ moments, moment.what.isOfProgram = false

lemma RunsNoTool.append {earlier later : List Moment} (h : RunsNoTool earlier)
    (h' : RunsNoTool later) : RunsNoTool (earlier ++ later) :=
  fun moment hm => (List.mem_append.mp hm).elim (h moment) (h' moment)

lemma RunsNoTool.endsTools {moments : List Moment} (h : RunsNoTool moments) :
    EndsTools moments := by
  refine endsTools_of_startsNone fun moment hm tool hw => ?_
  have hn := h moment hm
  rw [hw] at hn
  cases hn

lemma runsNoTool_of_isQuiet {moments : List Moment}
    (h : ∀ moment ∈ moments, moment.what.isQuiet = true) : RunsNoTool moments :=
  fun moment hm => Happening.isOfProgram_of_isQuiet (h moment hm)

lemma runsNoTool_of_down {time : Nat} {names : List String} {after : List Moment}
    (h : ∀ moment ∈ after, moment.what.isQuiet = true) :
    RunsNoTool (⟨time, .downAsked names⟩ :: after) := by
  rw [RunsNoTool, List.forall_mem_cons]
  exact ⟨rfl, runsNoTool_of_isQuiet h⟩

/-- Programs of tools start and end from one time to another only, and each that starts ends. -/
structure RunsToolsWithin (first last : Nat) (moments : List Moment) : Prop where
  ends : EndsTools moments
  within : ∀ moment ∈ moments, moment.what.isOfProgram = true →
    first ≤ moment.time ∧ moment.time ≤ last

lemma runsToolsWithin_append {first last : Nat} {before tools after : List Moment}
    (hb : RunsNoTool before) (he : EndsTools tools)
    (ht : ∀ moment ∈ tools, first ≤ moment.time ∧ moment.time ≤ last) (ha : RunsNoTool after) :
    RunsToolsWithin first last (before ++ tools ++ after) := by
  refine ⟨(hb.endsTools.append he).append ha.endsTools, fun moment hm hp => ?_⟩
  rcases List.mem_append.mp hm with hm | hm
  · rcases List.mem_append.mp hm with hm | hm
    · exact absurd hp (by simp [hb moment hm])
    · exact ht moment hm
  · exact absurd hp (by simp [ha moment hm])

/-- The services of a job have their window from where it has been prepared, and its tools have the
time of the job from where the services are ready. -/
theorem Config.tools_within_second_term (c : Config) (runtime : Runtime σ) (request : Request)
    (w : World σ) :
    ∃ news, ((c.run runtime request).perform w).2.history = w.history ++ news ∧
      match (Job.prepare c request).perform w with
      | (.error _, _) => RunsNoTool news
      | (.ok prepared, first) =>
        prepared.began ≤ first.now ∧
        match (Session.start runtime (Job.patience c) c.services.required
            c.services.names).perform first with
        | (.error _, _) => RunsNoTool news
        | (.ok _, ready) =>
          first.now ≤ ready.now ∧
          ready.now ≤ first.now + min c.services.startupTimeoutMs c.jobTimeoutMs ∧
          RunsToolsWithin ready.now (ready.now + c.jobTimeoutMs) news := by
  obtain ⟨asked, ha, hquiet⟩ := (Job.isQuiet_prepare c request w).history
  have hknown := c.services_known
  rw [perform_run]
  rcases hp : (Job.prepare c request).perform w with ⟨e | prepared, first⟩ <;> rw [hp] at ha
  · exact ⟨asked, ha, runsNoTool_of_isQuiet hquiet⟩
  dsimp only at ha ⊢
  obtain ⟨before, after, hh, hbefore, hresult⟩ :=
    Session.start_history runtime (Job.patience c) hknown first
  have hnone : RunsNoTool (asked ++ before) := (runsNoTool_of_isQuiet hquiet).append
    fun moment hm => Happening.isOfProgram_of_isOfStart (hbefore moment hm)
  rcases hs : (Session.start runtime (Job.patience c) c.services.required
    c.services.names).perform first with ⟨e | session, ready⟩ <;> rw [hs] at hh hresult
  · obtain ⟨time, rest, rfl, hrest⟩ := hresult
    refine ⟨asked ++ before ++ ⟨time, .downAsked c.services.names⟩ :: rest, ?_,
      Job.began_of_prepare hp, hnone.append (runsNoTool_of_down hrest)⟩
    rw [hh, ha, List.append_assoc, List.append_assoc, List.append_assoc]
  · obtain ⟨_, rfl, _⟩ := hresult
    obtain ⟨tools, ht, hends, hle⟩ := Workplace.passes_runTools (p := prepared.place)
      c.parallelTools c.tools (Nat.le_add_right ready.now c.jobTimeoutMs)
    obtain ⟨hstart, hwindow⟩ := Session.now_start hknown hs
    dsimp only
    generalize hran : prepared.place.runTools c.parallelTools (some (ready.now + c.jobTimeoutMs))
      c.tools ready = ran at ht hle
    -- Behind the tools there is only the end of the services and of the job, which run none.
    obtain ⟨stopped, hstop, hsq⟩ := (Job.takesDown_stopServices runtime session ran.2).history
    obtain ⟨concluded, hc, hcq⟩ := (Job.isQuiet_conclude c request prepared.job prepared.began
      prepared.place.reports ran.1 ((Job.stopServices runtime session).perform ran.2).2).history
    refine ⟨asked ++ before ++ tools ++ (⟨ran.2.now, .downAsked session.names⟩ :: stopped ++ concluded),
      ?_, Job.began_of_prepare hp, hstart, hwindow,
      runsToolsWithin_append hnone hends (fun moment hm => ?_)
        ((runsNoTool_of_down hsq).append (runsNoTool_of_isQuiet hcq))⟩
    · rw [hc, hstop, ht.history, hh, ha]
      simp only [List.append_assoc, List.append_nil, List.cons_append]
    · exact ⟨(ht.between moment hm).1, (ht.between moment hm).2.trans hle⟩

def lateConfig : Config :=
  { Config.standard with
    jobTimeoutSecs := 10
    services := { ServicesConfig.standard with
      startupTimeoutSecs := 10
      pollIntervalMs := 8000
      required := [⟨"db", []⟩] }
    tools := [Tool.ofCommand "slow" ["slow"]] }

def lateWorld : World MemoryServices :=
  { World.fresh (Programs.withRepository fun call =>
      if call.name = "slow" then some ⟨[.pause 5000], .exit 0, 0⟩ else none) with
    services := .fresh [("db", some 2)] }

def lateRun : Except Failure JobReport × World MemoryServices :=
  (lateConfig.run MemoryServices.runtime hangingRequest).perform lateWorld

/-- A tool can run beyond the time of its job without being cut off: ten seconds after the beginning
of this job it still runs for three more. -/
theorem runs_on_behind_deadline :
    lateConfig.validate = .ok () ∧
    ∃ prepared first report v,
      (Job.prepare lateConfig hangingRequest).perform lateWorld = (.ok prepared, first) ∧
      lateRun = (.ok report, v) ∧
      report.deadlineExceeded = false ∧ report.success = true ∧
      report.outcomes.map Outcome.status = [.finished 0] ∧
      (∃ moment ∈ v.history, moment.what = .toolStarted "slow" ∧
        moment.time < prepared.began + lateConfig.jobTimeoutMs) ∧
      ∃ moment ∈ v.history, moment.what = .toolEnded "slow" ∧
        prepared.began + lateConfig.jobTimeoutMs + 3000 = moment.time := by
  refine ⟨rfl, ?_⟩
  have hb : (((Job.prepare lateConfig hangingRequest).perform lateWorld).1.map Job.Prepared.began) =
      .ok 0 := by
    decide +kernel
  have hr : lateRun.1.map (fun report =>
        (report.deadlineExceeded, report.success, report.outcomes.map Outcome.status)) =
        .ok (false, true, [.finished 0]) ∧
      ⟨8000, .toolStarted "slow"⟩ ∈ lateRun.2.history ∧
      ⟨13000, .toolEnded "slow"⟩ ∈ lateRun.2.history := by
    decide +kernel
  rcases hp : (Job.prepare lateConfig hangingRequest).perform lateWorld with ⟨e | prepared, first⟩ <;>
    rw [hp] at hb
  · cases hb
  rcases hrun : lateRun with ⟨e | report, v⟩ <;> rw [hrun] at hr
  · cases hr.1
  obtain ⟨hflags, hstarted, hended⟩ := hr
  obtain ⟨hd, hrest⟩ := Prod.mk.inj (Except.ok.inj hflags)
  obtain ⟨hs, hstatus⟩ := Prod.mk.inj hrest
  have hbegan : prepared.began = 0 := Except.ok.inj hb
  exact ⟨prepared, first, report, v, rfl, rfl, hd, hs, hstatus, ⟨_, hstarted, rfl, by rw [hbegan]; decide⟩,
    _, hended, rfl, by rw [hbegan]; rfl⟩

end Premerge
