import Premerge.Proofs.Job.Stages
import Premerge.Proofs.Report.FragmentFiles
import Premerge.Proofs.Report.Publishing
import Premerge.Proofs.Run.Files
import Premerge.Proofs.Service.Files

namespace Premerge

open Premerge.Report (Directory Fragment Summary)
open Premerge.Text.Utf8 (encode)
open Premerge.World

variable {σ : Type}

lemma Job.keepsFiles_stopServices {runtime : Runtime σ} (h : runtime.KeepsFiles)
    (session : Session) : (stopServices runtime session).KeepsFiles := by
  refine (Session.keepsFiles_stop h session).attempt.bind fun result => ?_
  cases result with
  | ok _ => exact fun _ => rfl
  | error e => exact Action.keepsFiles_log _

structure CanPublish (files : FileTree) (reports : Directory) (fragments : List Fragment)
    (shared : Option Path) : Prop where
  fragments : ∀ fragment ∈ fragments, files.CanWrite (reports.fragmentPath fragment.name)
  summary : files.IsFree reports.summaryPath
  shared : ∀ file ∈ shared, files.CanWrite file

lemma CanPublish.agreeOn {files after : FileTree} {reports : Directory}
    {fragments : List Fragment} {shared : Option Path}
    (h : CanPublish files reports fragments shared)
    (ha : FileTree.AgreeOn Directory.summaryFile files after) :
    CanPublish after reports fragments shared where
  fragments fragment hm := (ha.canWrite_iff _).mpr (h.fragments fragment hm)
  summary := ha.isFree Directory.isEntryName_summary h.summary
  shared file hm := (ha.canWrite_iff _).mpr (h.shared file hm)

lemma canPublish_iff {files after : FileTree} {reports : Directory} {fragments : List Fragment}
    {shared : Option Path} (ha : FileTree.AgreeOn Directory.summaryFile files after) :
    CanPublish after reports fragments shared ↔ CanPublish files reports fragments shared :=
  ⟨fun h => h.agreeOn ha.symm, fun h => h.agreeOn ha⟩

lemma Workplace.preserves_agreeOn (p : Workplace) (first : FileTree) :
    p.Preserves (FileTree.AgreeOn Directory.summaryFile first) :=
  -- A raw report has another ending than the summary.
  fun _ _ _ _ h hw => h.trans (.of_write (by decide) (by decide) (by decide) hw)

namespace Job

variable {reports : Directory} {fragments : List Fragment}

lemma agreeOn_writeFragment (reports : Directory) (fragment : Fragment) (w : World σ) :
    FileTree.AgreeOn Directory.summaryFile w.files
      ((reports.writeFragment fragment).perform w).2.files := by
  rw [Directory.perform_writeFragment]
  rcases hw : w.files.write (reports.fragmentPath fragment.name) (encode fragment.body) with
    e | files
  · exact .refl _ _
  · exact .of_write (by decide) (by decide) (by decide) hw

lemma agreeOn_writeFragments (reports : Directory) (fragments : List Fragment) (w : World σ) :
    FileTree.AgreeOn Directory.summaryFile w.files
      ((writeFragments reports fragments).perform w).2.files := by
  induction fragments generalizing w with
  | nil => exact .refl _ _
  | cons fragment rest ih =>
    have hfirst := agreeOn_writeFragment reports fragment w
    rw [writeFragments, Action.perform_bind]
    rcases hw : (reports.writeFragment fragment).perform w with ⟨e | path, v⟩ <;> rw [hw] at hfirst
    · exact hfirst
    · exact hfirst.trans (ih v)

lemma exists_writeFragments_iff {w : World σ} :
    (∃ v, (writeFragments reports fragments).perform w = (.ok (), v)) ↔
      ∀ fragment ∈ fragments, w.files.CanWrite (reports.fragmentPath fragment.name) := by
  induction fragments generalizing w with
  | nil => simp [writeFragments]
  | cons fragment rest ih =>
    have hfirst := agreeOn_writeFragment reports fragment w
    rw [List.forall_mem_cons, writeFragments, Action.perform_bind,
      ← FileTree.exists_write_iff (encode fragment.body)]
    rw [Directory.perform_writeFragment] at hfirst ⊢
    rcases hw : w.files.write (reports.fragmentPath fragment.name) (encode fragment.body) with
      e | files <;> rw [hw] at hfirst
    · simp
    · dsimp only at hfirst ⊢
      rw [ih, ← forall₂_congr fun other _ => hfirst.canWrite_iff _]
      simp

def summaryOf (c : Config) (results : Workplace.Results) : Summary :=
  .compose c.summaryOrder (fragmentsOf results.outcomes)
    (Verdict.ofOutcomes results.outcomes (deadlineOf c results.deadlineExceeded)).violations

section

variable {c : Config} {request : Request} {job : Job} {began : Nat} {results : Workplace.Results}
  {w u v : World σ} {report : JobReport}

variable (c request job began) in
lemma conclude_of_written
    (hw : (writeFragments reports (fragmentsOf results.outcomes)).perform w = (.ok (), u)) :
    ∃ x : World σ, x.files = u.files ∧
      (∀ e y, ((summaryOf c results).publish reports request.sharedSummary).perform x =
          (.error e, y) →
        (conclude c request job began reports results).perform w = (.error e, y)) ∧
      ∀ path y, ((summaryOf c results).publish reports request.sharedSummary).perform x =
          (.ok path, y) →
        ∃ report v, (conclude c request job began reports results).perform w = (.ok report, v) ∧
          report.summary = summaryOf c results ∧ report.summaryPath = path ∧ v.files = y.files := by
  obtain ⟨x, hx, hf⟩ := Summary.exists_perform_announce c.summaryOrder (fragmentsOf results.outcomes)
    (Verdict.ofOutcomes results.outcomes (deadlineOf c results.deadlineExceeded)).violations u
  unfold conclude
  rw [Action.perform_bind, hw]
  dsimp only
  rw [Action.perform_bind, ← deadlineOf, hx]
  dsimp only
  rw [Action.perform_bind, ← summaryOf]
  refine ⟨x, hf, fun e y hp => ?_, fun path y hp => ?_⟩
  · rw [hp]
  · rw [hp]
    exact ⟨_, _, rfl, rfl, rfl, rfl⟩

lemma written_of_conclude
    (h : (conclude c request job began reports results).perform w = (.ok report, v)) :
    ∃ u, (writeFragments reports (fragmentsOf results.outcomes)).perform w = (.ok (), u) := by
  unfold conclude at h
  obtain ⟨⟨⟩, u, hw, _⟩ := Action.perform_bind_ok h
  exact ⟨u, hw⟩

lemma exists_conclude_iff :
    (∃ report v, (conclude c request job began reports results).perform w = (.ok report, v)) ↔
      CanPublish w.files reports (fragmentsOf results.outcomes) request.sharedSummary := by
  have ha := agreeOn_writeFragments reports (fragmentsOf results.outcomes) w
  -- Either way the publication meets the files that the fragments left, which agree with the first
  -- ones on where the summary and the shared file go.
  constructor
  · rintro ⟨report, v, h⟩
    obtain ⟨u, hw⟩ := written_of_conclude h
    obtain ⟨x, hx, herror, _⟩ := conclude_of_written c request job began hw
    rw [hw] at ha
    rcases hp : ((summaryOf c results).publish reports request.sharedSummary).perform x with
      ⟨e | path, y⟩
    · cases (herror e y hp).symm.trans h
    · obtain ⟨hfree, hshared⟩ := Summary.exists_publish_iff.mp ⟨path, y, hp⟩
      rw [hx] at hfree hshared
      exact ⟨exists_writeFragments_iff.mp ⟨u, hw⟩,
        ha.symm.isFree Directory.isEntryName_summary hfree,
        fun file hm => (ha.canWrite_iff _).mp (hshared file hm)⟩
  · intro h
    obtain ⟨u, hw⟩ := exists_writeFragments_iff.mpr h.fragments
    obtain ⟨x, hx, _, hok⟩ := conclude_of_written c request job began hw
    rw [hw] at ha
    have hc := h.agreeOn ha
    rw [← hx] at hc
    obtain ⟨path, y, hp⟩ := Summary.exists_publish_iff.mpr ⟨hc.summary, hc.shared⟩
    obtain ⟨report, v, h, _⟩ := hok path y hp
    exact ⟨report, v, h⟩

lemma read_of_conclude
    (h : (conclude c request job began reports results).perform w = (.ok report, v)) :
    report.summaryPath = reports.summaryPath ∧
      ((¬∃ file ∈ request.sharedSummary, w.files.SamePlace file reports.summaryPath) →
        v.files.read report.summaryPath = .ok (encode report.summary.text)) ∧
      ((∃ file ∈ request.sharedSummary, w.files.SamePlace file reports.summaryPath) →
        v.files.read report.summaryPath =
          .ok (encode report.summary.text ++ encode report.summary.text)) := by
  have ha := agreeOn_writeFragments reports (fragmentsOf results.outcomes) w
  obtain ⟨u, hw⟩ := written_of_conclude h
  obtain ⟨x, hx, herror, hok⟩ := conclude_of_written c request job began hw
  rw [hw] at ha
  rcases hp : ((summaryOf c results).publish reports request.sharedSummary).perform x with
    ⟨e | path, y⟩
  · cases (herror e y hp).symm.trans h
  · obtain ⟨other, last, h', hs, rfl, hf⟩ := hok path y hp
    cases h'.symm.trans h
    have hr := Summary.read_of_publish hp
    have hsame (file : Path) : x.files.SamePlace file reports.summaryPath ↔
        w.files.SamePlace file reports.summaryPath := by
      rw [hx]
      exact ha.samePlace_iff
    simp only [hsame] at hr
    rwa [hs, hf]

end

end Job

/-- A job may fail until its tools are started. From then on it has a report if and only if its
files can be written, and its summary stands in the report directory. -/
theorem Config.publishes_iff {runtime : Runtime σ} (hr : runtime.KeepsFiles) (c : Config)
    (request : Request) (w : World σ) :
    match (Job.prepare c request).perform w with
    | (.error e, v) => (c.run runtime request).perform w = (.error e, v)
    | (.ok prepared, v) =>
      match (Session.start runtime (Job.patience c) c.services.required
          c.services.names).perform v with
      | (.error e, u) => (c.run runtime request).perform w = (.error e, u)
      | (.ok _, u) =>
        let reports : Directory := ⟨request.reports⟩
        let outcomes := (prepared.place.runTools c.parallelTools
          (some (u.now + c.jobTimeoutMs)) c.tools u).1.outcomes
        ((∃ report x, (c.run runtime request).perform w = (.ok report, x)) ↔
          CanPublish u.files reports (Job.fragmentsOf outcomes) request.sharedSummary) ∧
        ∀ report x, (c.run runtime request).perform w = (.ok report, x) →
          report.summaryPath = reports.summaryPath ∧
          ((¬∃ file ∈ request.sharedSummary, u.files.SamePlace file reports.summaryPath) →
            x.files.read report.summaryPath = .ok (encode report.summary.text)) ∧
          ((∃ file ∈ request.sharedSummary, u.files.SamePlace file reports.summaryPath) →
            x.files.read report.summaryPath =
              .ok (encode report.summary.text ++ encode report.summary.text)) := by
  have hrun := c.perform_run runtime request w
  rcases hp : (Job.prepare c request).perform w with ⟨e | prepared, v⟩ <;> rw [hp] at hrun
  · exact hrun
  dsimp only at hrun ⊢
  rcases hs : (Session.start runtime (Job.patience c) c.services.required
    c.services.names).perform v with ⟨e | session, u⟩ <;> rw [hs] at hrun
  · exact hrun
  dsimp only at hrun ⊢
  obtain ⟨_, _, _, hreports⟩ := Job.known_of_prepare hp
  -- Neither the tools nor the end of the services change what the job needs of the files.
  have ha := (prepared.place.preserves_agreeOn u.files).runTools c.parallelTools
    (some (u.now + c.jobTimeoutMs)) c.tools (.refl _ _)
  rw [← Job.keepsFiles_stopServices hr session (prepared.place.runTools _ _ _ u).2] at ha
  rw [hrun, hreports]
  refine ⟨Job.exists_conclude_iff.trans (canPublish_iff ha), fun report x h => ?_⟩
  have hread := Job.read_of_conclude h
  simp only [ha.samePlace_iff] at hread
  exact hread

def lintWorld : World Unit :=
  .fresh (Programs.withRepository fun call =>
    if call.name = "lint" then some ⟨[.write .output [108, 10]], .exit 0, 0⟩ else none)

def lintConfig : Config :=
  { Config.standard with
    services := { ServicesConfig.standard with required := [] }
    tools := [Tool.ofCommand "lint" ["lint"]] }

def lintRequest (shared : Option Path) : Request := ⟨".", "main", "HEAD", none, "reports", shared⟩

def lintRun (shared : Option Path) : Except Failure JobReport × World Unit :=
  (lintConfig.run (Composition.runtime ⟨none, none, none⟩) (lintRequest shared)).perform lintWorld

/-- A shared file that cannot be opened takes a job's report away, though its tools have run and its
summary is written. -/
theorem no_report_for_want_of_directory :
    lintConfig.validate = .ok () ∧
    ∃ u, lintRun (some "missing/step.md") = (.error (.system .notFound), u) ∧
      .toolEnded "lint" ∈ u.past.map Moment.what ∧
      u.files.read "reports/summary.md" = .ok (encode (Fragment.block "lint" "l\n")) := by
  refine ⟨rfl, ?_⟩
  have h : (lintRun (some "missing/step.md")).1 = .error (.system .notFound) ∧
      .toolEnded "lint" ∈ (lintRun (some "missing/step.md")).2.past.map Moment.what ∧
      (lintRun (some "missing/step.md")).2.files.read "reports/summary.md" =
        .ok (encode (Fragment.block "lint" "l\n")) := by
    decide +kernel
  rcases hrun : lintRun (some "missing/step.md") with ⟨result, u⟩
  rw [hrun] at h
  obtain ⟨rfl, hran, htext⟩ := h
  exact ⟨u, rfl, hran, htext⟩

theorem publishes_iff_lint :
    ∃ report x, lintRun none = (.ok report, x) ∧
      x.files.read report.summaryPath = .ok (encode report.summary.text) := by
  have hok : (lintRun none).1.isOk = true := by decide +kernel
  have h := Config.publishes_iff (Composition.keepsFiles_runtime ⟨none, none, none⟩) lintConfig
    (lintRequest none) lintWorld
  rcases hrun : lintRun none with ⟨e | report, x⟩ <;> rw [hrun] at hok
  · cases hok
  refine ⟨report, x, rfl, ?_⟩
  split at h
  · cases h.symm.trans hrun
  · split at h
    · cases h.symm.trans hrun
    · exact (h.2 report x hrun).2.1 (by simp [lintRequest])

end Premerge
