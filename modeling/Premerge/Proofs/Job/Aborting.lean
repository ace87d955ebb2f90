import Premerge.Proofs.Job.Causes

namespace Premerge

open Premerge.Change (HaveFault)
open Premerge.Report (Directory Fragment Summary)
open Premerge.Text.Utf8 (encode)
open Premerge.World

variable {σ α β : Type}

namespace Report.Directory

def KeepsSummaries (tree after : FileTree) : Prop :=
  ∀ location content, location.getLast? = some summaryFile →
    after.get? location = some (.file content) → tree.get? location = some (.file content)

namespace KeepsSummaries

variable {tree after last : FileTree}

lemma refl (tree : FileTree) : KeepsSummaries tree tree :=
  fun _ _ _ h => h

lemma trans (h : KeepsSummaries tree after) (h' : KeepsSummaries after last) :
    KeepsSummaries tree last :=
  fun location content hl hf => h location content hl (h' location content hl hf)

lemma of_agreeOn (h : FileTree.AgreeOn summaryFile tree after) : KeepsSummaries tree after := by
  intro location content hl hf
  rwa [h.same location hl] at hf

lemma of_makes {paths : List Path} (h : tree.Makes after paths) : KeepsSummaries tree after := by
  intro location content _ hf
  rcases h.same_or_made location with hs | ⟨_, hd, _⟩
  · rwa [hs] at hf
  · cases hd.symm.trans hf

end KeepsSummaries

lemma agreeOn_of_writeEnvironment {d : Directory} {tree after : FileTree} {content : Text.Utf8.Octets}
    (h : tree.write d.environmentPath content = .ok after) :
    FileTree.AgreeOn summaryFile tree after := by
  have hw : tree.write (Path.join d.path ("environment" ++ ".txt")) content = .ok after := h
  exact .of_write (by decide) (by decide) (by decide) hw

end Report.Directory

open Report.Directory (KeepsSummaries)

namespace Action

def PublishesNone (a : Action σ α) : Prop :=
  ∀ w : World σ, KeepsSummaries w.files (a.perform w).2.files

namespace PublishesNone

lemma bind {a : Action σ α} {f : α → Action σ β} (h : a.PublishesNone)
    (hf : ∀ x, (f x).PublishesNone) : (a >>= f).PublishesNone := by
  intro w
  have hw := h w
  rw [perform_bind]
  rcases hp : a.perform w with ⟨e | x, v⟩ <;> rw [hp] at hw
  · exact hw
  · exact hw.trans (hf x v)

lemma pure (x : α) : (pure x : Action σ α).PublishesNone :=
  fun w => .refl w.files

lemma of_onlyAsks {a : Action σ α} (h : a.OnlyAsks) : a.PublishesNone := by
  intro w
  rw [(h.untouched w).files]
  exact .refl _

end PublishesNone

end Action

open Premerge.Action (PublishesNone)

namespace Report.Directory

lemma publishesNone_create (path : Path) : (create path : Action σ Directory).PublishesNone := by
  intro w
  have hmade := FileTree.Makes.of_makeChain w.files path.ancestors
  rw [perform_create]
  split
  · exact .refl _
  · split
    next hc =>
      rw [hc] at hmade
      exact .of_makes hmade
    next hc =>
      rw [hc] at hmade
      exact .of_makes hmade

lemma publishesNone_writeEnvironment (d : Directory) (entries : List (String × String)) :
    (d.writeEnvironment entries : Action σ Path).PublishesNone := by
  intro w
  rw [perform_writeEnvironment]
  split
  · exact .refl _
  next files hw => exact .of_agreeOn (agreeOn_of_writeEnvironment hw)

end Report.Directory

namespace Job

lemma publishesNone_prepare (c : Config) (request : Request) :
    (prepare c request : Action σ Prepared).PublishesNone := by
  rw [prepare_eq]
  exact (PublishesNone.of_onlyAsks (onlyAsks_examine c request)).bind fun known =>
    PublishesNone.bind
      ((Directory.publishesNone_create _).bind fun reports =>
        (reports.publishesNone_writeEnvironment _).bind fun _ => .pure _)
      fun _ => .pure _

lemma published_of_failed_conclude {c : Config} {request : Request} {job : Job} {began : Nat}
    {reports : Directory} {results : Workplace.Results} {w v : World σ} {e : Failure}
    (h : (conclude c request job began reports results).perform w = (.error e, v)) :
    (e.IsOfReports ∧ KeepsSummaries w.files v.files) ∨
    ∃ file ∈ request.sharedSummary, ∃ cause, e = .system cause ∧
      v.files.read reports.summaryPath = .ok (encode (summaryOf c results).text) := by
  have ha := agreeOn_writeFragments reports (fragmentsOf results.outcomes) w
  rcases hw : (writeFragments reports (fragmentsOf results.outcomes)).perform w with
    ⟨fault | ⟨⟩, u⟩ <;> rw [hw] at ha
  · have hsame : (conclude c request job began reports results).perform w = (.error fault, u) := by
      rw [conclude, Action.perform_bind, hw]
    cases hsame.symm.trans h
    exact .inl ⟨.inr (failed_writeFragments hw), .of_agreeOn ha⟩
  obtain ⟨x, hx, herror, hok⟩ := conclude_of_written c request job began hw
  rcases hp : ((summaryOf c results).publish reports request.sharedSummary).perform x with
    ⟨fault | path, y⟩
  · cases (herror _ _ hp).symm.trans h
    rw [Summary.perform_publish] at hp
    rcases hn : x.files.writeNew reports.summaryPath (encode (summaryOf c results).text) with
      cause | files <;> rw [hn] at hp
    · cases hp
      rw [hx]
      exact .inl ⟨.inl ⟨_, rfl⟩, .of_agreeOn ha⟩
    · obtain ⟨location, hat, _, rfl⟩ := FileTree.writeNew_eq_ok_iff.mp hn
      -- The summary stands where it belongs, and the failure is one of the shared file.
      rcases hshared : request.sharedSummary with _ | file <;> rw [hshared] at hp
      · cases hp
      · dsimp only at hp
        split at hp <;> cases hp
        exact .inr ⟨file, rfl, _, rfl, (hat.stores _).read⟩
  · obtain ⟨_, _, h', _⟩ := hok path y hp
    cases h'.symm.trans h

end Job

def Failure.StopsEarly (e : Failure) : Prop :=
  e.abortsJob = true ∨ e.IsOfGit ∨ (∃ fault, e = .config fault) ∨ ∃ fault, e = .service fault

lemma Failure.not_stopsEarly_of_isOfReports {e : Failure} (h : e.IsOfReports) : ¬e.StopsEarly := by
  rcases h with ⟨_, rfl⟩ | ⟨_, rfl⟩ <;> simp [StopsEarly, abortsJob, IsOfGit]

lemma Job.IsCause.stopsEarly {c : Config} {e : Failure} (h : IsCause c e) :
    e.StopsEarly ∨ e.IsOfReports := by
  rcases h with hgit | ⟨_, rfl⟩ | ⟨fault, rfl, _⟩ | hreports
  · exact .inl (.inr (.inl hgit))
  · exact .inl (.inl rfl)
  · exact .inl (.inr (.inr (.inl ⟨fault, rfl⟩)))
  · exact .inr hreports

lemma Failure.stopsEarly_of_isOfServices {e : Failure} (h : e.isOfServices = true) :
    e.StopsEarly := by
  cases e with
  | serviceNotReady service seconds => exact .inl rfl
  | service fault => exact .inr (.inr (.inr ⟨fault, rfl⟩))
  | _ => cases h

/-- How a job can fail. What aborts it comes before its tools and without a summary, but so does
every failure of the version control system, the configuration and the services; where there is a
summary, the shared file has failed. -/
theorem Config.summary_of_failed_run {runtime : Runtime σ} (hr : runtime.IsOutside) {c : Config}
    (hc : c.validate = .ok ()) {request : Request} {w v : World σ} {e : Failure}
    (h : (c.run runtime request).perform w = (.error e, v)) :
    (e.StopsEarly ∨ e.IsOfReports) ∧
    (e.StopsEarly → (∃ news, v.history = w.history ++ news ∧ StartsNoTool news) ∧
      KeepsSummaries w.files v.files) ∧
    (KeepsSummaries w.files v.files ∨
      ∃ prepared first session ready, (Job.prepare c request).perform w = (.ok prepared, first) ∧
        (Session.start runtime (Job.patience c) c.services.required c.services.names).perform
          first = (.ok session, ready) ∧
        ∃ file ∈ request.sharedSummary, ∃ cause, e = .system cause ∧
          v.files.read (Directory.summaryPath ⟨request.reports⟩) =
            .ok (encode (Job.summaryOf c (prepared.place.runTools c.parallelTools
              (some (ready.now + c.jobTimeoutMs)) c.tools ready).1).text)) := by
  obtain ⟨_, _, _, table, ht⟩ := validate_eq_ok_iff.mp hc
  obtain ⟨asked, hasked, hquiet⟩ := (Job.isQuiet_prepare c request w).history
  have hkept := Job.publishesNone_prepare c request w
  rw [perform_run] at h
  rcases hp : (Job.prepare c request).perform w with ⟨fault | prepared, first⟩ <;>
    rw [hp] at h hasked hkept
  · cases h
    exact ⟨(Job.failsOnly_prepare ht request w v _ hp).stopsEarly,
      fun _ => ⟨⟨asked, hasked, startsNoTool_of_isQuiet hquiet⟩, hkept⟩, .inl hkept⟩
  have hknown := c.services_known
  obtain ⟨hfiles, hfails⟩ := Session.start_outside hr (Job.patience c) hknown first
  dsimp only at h hasked hkept
  rcases hs : (Session.start runtime (Job.patience c) c.services.required
    c.services.names).perform first with ⟨fault | session, ready⟩ <;> rw [hs] at h hfiles
  · cases h
    obtain ⟨news, hn, hnone⟩ := Session.startsNoTool_of_failed runtime (Job.patience c) hknown hs
    rw [← hfiles] at hkept
    refine ⟨.inl (Failure.stopsEarly_of_isOfServices (hfails e v hs)), fun _ =>
      ⟨⟨asked ++ news, ?_, (startsNoTool_of_isQuiet hquiet).append hnone⟩, hkept⟩, .inl hkept⟩
    rw [hn, hasked, List.append_assoc]
  · obtain ⟨_, _, _, hreports⟩ := Job.known_of_prepare hp
    dsimp only at h hfiles
    -- Neither the tools nor the end of the services touch a summary.
    have hran := (prepared.place.preserves_agreeOn ready.files).runTools c.parallelTools
      (some (ready.now + c.jobTimeoutMs)) c.tools (.refl _ _)
    rw [← Job.keepsFiles_stopServices hr.files_down session
      (prepared.place.runTools _ _ _ ready).2, hfiles] at hran
    rcases Job.published_of_failed_conclude h with
      ⟨he, hconclude⟩ | ⟨file, hfile, cause, rfl, hread⟩
    · exact ⟨.inr he, fun hstop => absurd hstop (Failure.not_stopsEarly_of_isOfReports he),
        .inl (hkept.trans ((KeepsSummaries.of_agreeOn hran).trans hconclude))⟩
    · rw [hreports] at hread
      have he : (Failure.system cause).IsOfReports := .inr ⟨cause, rfl⟩
      exact ⟨.inr he, fun hstop => absurd hstop (Failure.not_stopsEarly_of_isOfReports he),
        .inr ⟨prepared, first, session, ready, rfl, hs, file, hfile, cause, rfl, hread⟩⟩

/-- A job that cannot ask the version control system, and one whose services cannot be started, end
without a summary, but their failures do not count as aborting a job. -/
theorem ends_without_aborting :
    (lintConfig.validate = .ok () ∧ ∃ v,
      (lintConfig.run (Composition.runtime ⟨none, none, none⟩) (lintRequest none)).perform
        (.fresh fun _ => none) = (.error (.git (.notStarted .notFound)), v) ∧
      v.files.pathExists "reports" = false ∧
      Failure.abortsJob (.git (.notStarted .notFound)) = false) ∧
    databaseConfig.validate = .ok () ∧ ∃ v,
      (databaseConfig.run (Composition.runtime ⟨none, none, none⟩) (lintRequest none)).perform
        lintWorld = (.error (.service (.notStarted .notFound)), v) ∧
      v.files.list "reports" = .ok ["environment.txt"] ∧
      Failure.abortsJob (.service (.notStarted .notFound)) = false := by
  constructor
  · refine ⟨rfl, ?_⟩
    have h : ((lintConfig.run (Composition.runtime ⟨none, none, none⟩) (lintRequest none)).perform
          (.fresh fun _ => none)).1 = .error (.git (.notStarted .notFound)) ∧
        ((lintConfig.run (Composition.runtime ⟨none, none, none⟩) (lintRequest none)).perform
          (.fresh fun _ => none)).2.files.pathExists "reports" = false := by
      decide +kernel
    exact ⟨_, Prod.ext h.1 rfl, h.2, rfl⟩
  · refine ⟨rfl, ?_⟩
    have h : ((databaseConfig.run (Composition.runtime ⟨none, none, none⟩)
          (lintRequest none)).perform lintWorld).1 = .error (.service (.notStarted .notFound)) ∧
        ((databaseConfig.run (Composition.runtime ⟨none, none, none⟩)
          (lintRequest none)).perform lintWorld).2.files.list "reports" =
            .ok ["environment.txt"] := by
      decide +kernel
    exact ⟨_, Prod.ext h.1 rfl, h.2, rfl⟩

theorem summary_of_failed_run_database :
    ∃ v, (databaseConfig.run (Composition.runtime ⟨none, none, none⟩) (lintRequest none)).perform
        lintWorld = (.error (.service (.notStarted .notFound)), v) ∧
      (∃ news, v.history = lintWorld.history ++ news ∧ StartsNoTool news) ∧
      KeepsSummaries lintWorld.files v.files := by
  have he : ((databaseConfig.run (Composition.runtime ⟨none, none, none⟩)
      (lintRequest none)).perform lintWorld).1 = .error (.service (.notStarted .notFound)) := by
    decide +kernel
  rcases h : (databaseConfig.run (Composition.runtime ⟨none, none, none⟩)
    (lintRequest none)).perform lintWorld with ⟨result, v⟩
  rw [h] at he
  cases he
  obtain ⟨_, hearly, _⟩ :=
    Config.summary_of_failed_run (Composition.isOutside_runtime ⟨none, none, none⟩) rfl h
  exact ⟨v, rfl, hearly (.inr (.inr (.inr ⟨_, rfl⟩)))⟩

end Premerge
