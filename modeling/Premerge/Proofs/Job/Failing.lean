import Premerge.Proofs.Files.Making
import Premerge.Proofs.Job.Examining
import Premerge.Proofs.Job.Publication
import Premerge.Proofs.Job.Teardown
import Premerge.Proofs.Service.Outside

namespace Premerge

open Premerge.Report (Directory Fragment Summary)
open Premerge.Text.Utf8 (encode)
open Premerge.World

variable {σ : Type}

namespace Report.Directory

lemma isEntryName_environment : IsEntryName environmentFile :=
  ⟨by decide, by decide, by decide, by decide⟩

/-- Later on the directory stands with the file of what is known about the job. Apart from this file
there are only directories that were missing on the way. -/
structure OpenedOnly (d : Directory) (entries : List (String × String)) (tree after : FileTree) :
    Prop where
  current : after.current = tree.current
  environment : ∃ base, after.inside d.path = .ok base ∧
    after.get? (base ++ [environmentFile]) = some (.file (encode (environmentText entries))) ∧
    ∀ location, location ≠ base ++ [environmentFile] →
      after.get? location = tree.get? location ∨ tree.get? location = none ∧
        after.get? location = some .directory ∧ ∃ path ∈ d.path.ancestors, after.LeadsTo path location

lemma openedOnly_of_write {d : Directory} {entries : List (String × String)}
    {tree made after : FileTree} (hm : tree.Makes made d.path.ancestors)
    (hw : made.write d.environmentPath (encode (environmentText entries)) = .ok after) :
    d.OpenedOnly entries tree after := by
  have hk := FileTree.keeps_of_write hw
  obtain ⟨location, node, hl, hd, rfl⟩ := FileTree.locate_of_write hw
  obtain ⟨base, hb, rfl⟩ := FileTree.inside_of_locate isEntryName_environment hl
  have hne : base ++ [environmentFile] ≠ [] := FileTree.ne_nil_of_get? hd
  refine ⟨hm.current, base, FileTree.inside_of_directories hk.current (fun _ => hk.directory) hb,
    ?_, fun other ho => ?_⟩
  · rw [FileTree.get?_put made hne, if_pos rfl]
  · rw [FileTree.get?_put made hne, if_neg ho]
    rcases hm.same_or_made other with hs | ⟨hn, hmade, path, hp, asDirectory, hleads⟩
    · exact .inl hs
    · exact .inr ⟨hn, hmade, path, hp, asDirectory,
        FileTree.locate_directory hk.current (fun _ => hk.directory) hleads⟩

end Report.Directory

lemma Failure.isOfServices_of_isRefusal {e : Failure} (h : e.isRefusal = true) :
    e.isOfServices = false := by
  unfold isRefusal at h
  split at h <;> first | rfl | cases h

lemma Failure.isRefusal_of_isOfServices {e : Failure} (h : e.isOfServices = true) :
    e.isRefusal = false := by
  unfold isOfServices at h
  split at h <;> first | rfl | cases h

namespace Report.Directory

lemma perform_writeEnvironment (d : Directory) (entries : List (String × String)) (w : World σ) :
    (d.writeEnvironment entries).perform w =
      match w.files.write d.environmentPath (encode (environmentText entries)) with
      | .error e => (.error (.system e), w)
      | .ok files => (.ok d.environmentPath, { w with files }) := by
  rw [writeEnvironment, Action.perform_bind, Action.perform_changeFiles]
  rcases w.files.write d.environmentPath (encode (environmentText entries)) with e | files <;> rfl

lemma failed_create {path : Path} {w v : World σ} {e : Failure}
    (h : (create path).perform w = (.error e, v)) :
    (e.isRefusal = true → v = w) ∧ e.isOfServices = false := by
  rw [perform_create] at h
  split at h
  next fault hr =>
    cases h
    refine ⟨fun _ => rfl, ?_⟩
    unfold refusal? at hr
    split at hr
    · split at hr
      · cases hr
        rfl
      · split at hr
        · cases hr
        · cases hr
          rfl
    · cases hr
  · split at h
    · cases h
    · cases h
      exact ⟨fun hr => (Bool.false_ne_true hr).elim, rfl⟩

end Report.Directory

namespace Job

lemma failed_openReports {job : Job} {request : Request} {w v : World σ} {e : Failure}
    (h : (job.openReports request).perform w = (.error e, v)) :
    (e.isRefusal = true → v = w) ∧ e.isOfServices = false := by
  unfold openReports at h
  rcases Action.perform_bind_error h with h | ⟨reports, u, _, h⟩
  · exact Directory.failed_create h
  rcases Action.perform_bind_error h with h | ⟨_, _, _, h⟩
  · rw [Directory.perform_writeEnvironment] at h
    split at h
    · cases h
      exact ⟨fun hr => (Bool.false_ne_true hr).elim, rfl⟩
    · cases h
  · cases h

lemma openedOnly_of_openReports {job : Job} {request : Request} {w v : World σ}
    {reports : Directory} (h : (job.openReports request).perform w = (.ok reports, v)) :
    Directory.OpenedOnly ⟨request.reports⟩ job.environment w.files v.files := by
  unfold openReports at h
  obtain ⟨made, u, hc, h⟩ := Action.perform_bind_ok h
  obtain ⟨_, _, hw, h⟩ := Action.perform_bind_ok h
  obtain ⟨rfl, _, hm⟩ := Directory.path_of_create hc
  rw [Directory.perform_writeEnvironment] at hw
  split at hw
  · cases hw
  next hw' =>
    cases hw
    cases h
    have hmakes := FileTree.Makes.of_makeChain w.files (Path.ancestors request.reports)
    rw [hm] at hmakes
    exact Directory.openedOnly_of_write hmakes hw'

lemma failed_prepare {c : Config} {request : Request} {w v : World σ} {e : Failure}
    (h : (prepare c request).perform w = (.error e, v)) :
    (e.isRefusal = true → w.Untouched v) ∧ e.isOfServices = false := by
  have hexamine := onlyAsks_examine (σ := σ) c request
  rw [prepare_eq] at h
  rcases Action.perform_bind_error h with h | ⟨known, u, hk, h⟩
  · have hu := hexamine.untouched w
    rw [h] at hu
    exact ⟨fun _ => hu, Failure.isOfServices_of_isRefusal (hexamine.refusal h)⟩
  · have hu := hexamine.untouched w
    rw [hk] at hu
    rcases Action.perform_bind_error h with h | ⟨_, _, _, h⟩
    · obtain ⟨hr, hs⟩ := failed_openReports h
      exact ⟨fun he => hr he ▸ hu, hs⟩
    · cases h

lemma openedOnly_of_prepare {c : Config} {request : Request} {w v : World σ}
    {prepared : Prepared} (h : (prepare c request).perform w = (.ok prepared, v)) :
    Directory.OpenedOnly ⟨request.reports⟩ prepared.job.environment w.files v.files := by
  have hu := (onlyAsks_examine (σ := σ) c request).untouched w
  rw [prepare_eq] at h
  obtain ⟨known, u, hk, h⟩ := Action.perform_bind_ok h
  obtain ⟨reports, _, ho, h⟩ := Action.perform_bind_ok h
  rw [hk] at hu
  cases h
  rw [← hu.files]
  exact openedOnly_of_openReports ho

lemma failed_writeFragments {reports : Directory} {fragments : List Fragment} {w v : World σ}
    {e : Failure} (h : (writeFragments reports fragments).perform w = (.error e, v)) :
    ∃ cause, e = .system cause := by
  induction fragments generalizing w with
  | nil => cases h
  | cons fragment rest ih =>
    rw [writeFragments] at h
    rcases Action.perform_bind_error h with h | ⟨_, _, _, h⟩
    · rw [Directory.perform_writeFragment] at h
      split at h
      · cases h
        exact ⟨_, rfl⟩
      · cases h
    · exact ih h

lemma failed_conclude {c : Config} {request : Request} {job : Job} {began : Nat}
    {reports : Directory} {results : Workplace.Results} {w v : World σ} {e : Failure}
    (h : (conclude c request job began reports results).perform w = (.error e, v)) :
    e.isRefusal = false ∧ e.isOfServices = false := by
  rcases hw : (writeFragments reports (fragmentsOf results.outcomes)).perform w with
    ⟨fault | ⟨⟩, u⟩
  · have hsame : (conclude c request job began reports results).perform w = (.error fault, u) := by
      rw [conclude, Action.perform_bind, hw]
    cases hsame.symm.trans h
    obtain ⟨cause, rfl⟩ := failed_writeFragments hw
    exact ⟨rfl, rfl⟩
  · obtain ⟨x, _, herror, hok⟩ := conclude_of_written c request job began hw
    rcases hp : ((summaryOf c results).publish reports request.sharedSummary).perform x with
      ⟨fault | path, y⟩
    · cases (herror _ _ hp).symm.trans h
      rw [Summary.perform_publish] at hp
      split at hp
      · cases hp
        exact ⟨rfl, rfl⟩
      · split at hp <;> cases hp
        exact ⟨rfl, rfl⟩
    · obtain ⟨_, _, h', _⟩ := hok path y hp
      cases h'.symm.trans h

end Job

def StartsNoTool (moments : List Moment) : Prop :=
  ∀ moment ∈ moments, ∀ tool, moment.what ≠ .toolStarted tool

lemma startsNoTool_of_isOfStart {moments : List Moment}
    (h : ∀ moment ∈ moments, moment.what.isOfStart = true) : StartsNoTool moments := by
  intro moment hm tool hw
  have hs := h moment hm
  rw [hw] at hs
  cases hs

lemma startsNoTool_of_isQuiet {moments : List Moment}
    (h : ∀ moment ∈ moments, moment.what.isQuiet = true) : StartsNoTool moments :=
  startsNoTool_of_isOfStart fun moment hm => Happening.isOfStart_of_isQuiet (h moment hm)

lemma StartsNoTool.append {earlier later : List Moment} (h : StartsNoTool earlier)
    (h' : StartsNoTool later) : StartsNoTool (earlier ++ later) :=
  fun moment hm => (List.mem_append.mp hm).elim (h moment) (h' moment)

lemma Session.startsNoTool_of_failed (runtime : Runtime σ) (p : Patience) {known : List Service}
    {names : List String} (hk : ∀ name ∈ names, name ∈ known.map Service.name) {w v : World σ}
    {e : Failure} (h : (start runtime p known names).perform w = (.error e, v)) :
    ∃ news, v.history = w.history ++ news ∧ StartsNoTool news := by
  obtain ⟨before, after, hh, hb, hresult⟩ := start_history runtime p hk w
  rw [h] at hh hresult
  obtain ⟨time, rest, rfl, hrest⟩ := hresult
  refine ⟨before ++ ⟨time, .downAsked names⟩ :: rest, by rw [hh, List.append_assoc], ?_⟩
  have hdown : StartsNoTool [⟨time, .downAsked names⟩] := by simp [StartsNoTool]
  exact (startsNoTool_of_isOfStart hb).append (hdown.append (startsNoTool_of_isQuiet hrest))

/-- A job that refuses the change has done nothing but to ask for it. A job whose services fail has
started no tool, and all it leaves behind is its report directory with what is known about it. -/
theorem Config.failed_run_leaves {runtime : Runtime σ} (hr : runtime.IsOutside) {c : Config}
    {request : Request} {w v : World σ} {e : Failure}
    (h : (c.run runtime request).perform w = (.error e, v)) :
    (e.isRefusal = true → w.Untouched v) ∧
    (e.isOfServices = true →
      (∃ news, v.history = w.history ++ news ∧ StartsNoTool news) ∧
      ∃ prepared u, (Job.prepare c request).perform w = (.ok prepared, u) ∧
        Directory.OpenedOnly ⟨request.reports⟩ prepared.job.environment w.files v.files) := by
  rw [perform_run] at h
  obtain ⟨first, hf, hq⟩ := (Job.isQuiet_prepare c request w).history
  rcases hp : (Job.prepare c request).perform w with ⟨fault | prepared, u⟩ <;> rw [hp] at h hf
  · cases h
    obtain ⟨hrefusal, hs⟩ := Job.failed_prepare hp
    exact ⟨hrefusal, fun he => absurd he (by simp [hs])⟩
  have hknown : ∀ name ∈ c.services.names, name ∈ c.services.required.map Service.name :=
    fun _ hm => hm
  obtain ⟨hfiles, hfails⟩ := Session.start_outside hr (Job.patience c) hknown u
  dsimp only at h
  rcases hs : (Session.start runtime (Job.patience c) c.services.required
    c.services.names).perform u with ⟨fault | session, x⟩ <;> rw [hs] at h hfiles
  · cases h
    have he := Failure.isRefusal_of_isOfServices (hfails e v hs)
    obtain ⟨news, hn, ht⟩ := Session.startsNoTool_of_failed runtime (Job.patience c) hknown hs
    have hopened := Job.openedOnly_of_prepare hp
    rw [← hfiles] at hopened
    refine ⟨fun hrefusal => absurd hrefusal (by simp [he]), fun _ =>
      ⟨⟨first ++ news, ?_, (startsNoTool_of_isQuiet hq).append ht⟩, prepared, u, rfl, hopened⟩⟩
    rw [hn, hf, List.append_assoc]
  · obtain ⟨hrefusal, hservices⟩ := Job.failed_conclude h
    exact ⟨fun he => absurd he (by simp [hrefusal]), fun he => absurd he (by simp [hservices])⟩

def silentConfig : Config :=
  { lintConfig with commit := ⟨0⟩ }

def databaseConfig : Config :=
  { lintConfig with services := { ServicesConfig.standard with required := [⟨"db", []⟩] } }

theorem failed_run_leaves_lint :
    (∃ v, (silentConfig.run (Composition.runtime ⟨none, none, none⟩) (lintRequest none)).perform
        lintWorld = (.error (.longLines 0 [⟨1, 1, "a"⟩]), v) ∧ lintWorld.Untouched v) ∧
    ∃ v, (databaseConfig.run (Composition.runtime ⟨none, none, none⟩) (lintRequest none)).perform
        lintWorld = (.error (.service (.notStarted .notFound)), v) ∧
      (∃ news, v.history = lintWorld.history ++ news ∧ StartsNoTool news) ∧
      ∃ entries, Directory.OpenedOnly ⟨"reports"⟩ entries lintWorld.files v.files := by
  have hr := Composition.isOutside_runtime (σ := Unit) ⟨none, none, none⟩
  constructor
  · have he : ((silentConfig.run (Composition.runtime ⟨none, none, none⟩) (lintRequest none)).perform
        lintWorld).1 = .error (.longLines 0 [⟨1, 1, "a"⟩]) := by decide +kernel
    rcases h : (silentConfig.run (Composition.runtime ⟨none, none, none⟩) (lintRequest none)).perform
      lintWorld with ⟨result, v⟩
    rw [h] at he
    cases he
    exact ⟨v, rfl, (Config.failed_run_leaves hr h).1 rfl⟩
  · have he : ((databaseConfig.run (Composition.runtime ⟨none, none, none⟩)
        (lintRequest none)).perform lintWorld).1 = .error (.service (.notStarted .notFound)) := by
      decide +kernel
    rcases h : (databaseConfig.run (Composition.runtime ⟨none, none, none⟩)
      (lintRequest none)).perform lintWorld with ⟨result, v⟩
    rw [h] at he
    cases he
    obtain ⟨hnews, prepared, _, _, hopened⟩ := (Config.failed_run_leaves hr h).2 rfl
    exact ⟨v, rfl, hnews, prepared.job.environment, hopened⟩

end Premerge
