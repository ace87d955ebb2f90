import Premerge.Proofs.Job.Publication
import Premerge.Proofs.Report.Order

namespace Premerge

open Premerge.Report (Directory Fragment Summary)
open Premerge.World

variable {σ : Type}

namespace Report.Summary

variable {order failures : List String} {fragments : List Fragment}

lemma included_eq (order : List String) (fragments : List Fragment) (failures : List String) :
    (compose order fragments failures).included =
      order.filter (· ∈ fragments.map Fragment.name) := by
  change (order.filterMap (find? fragments)).map Fragment.name = _
  induction order with
  | nil => rfl
  | cons name rest ih =>
    rcases hf : find? fragments name with _ | f
    · have hn : name ∉ fragments.map Fragment.name := by
        intro hm
        obtain ⟨f, hf', rfl⟩ := List.mem_map.mp hm
        have hs := find?_isSome hf'
        rw [hf] at hs
        cases hs
      rw [List.filterMap_cons_none hf, List.filter_cons_of_neg (by simpa using hn), ih]
    · have hname := name_of_find? hf
      have hn : name ∈ fragments.map Fragment.name :=
        hname ▸ List.mem_map_of_mem (List.mem_of_find?_eq_some hf)
      rw [List.filterMap_cons_some hf, List.filter_cons_of_pos (by simpa using hn), List.map_cons,
        ih, hname]

lemma count_selected {f : Fragment} (h : find? fragments f.name = some f) (order : List String) :
    (selected order fragments).count f = order.count f.name := by
  induction order with
  | nil => rfl
  | cons name rest ih =>
    rw [selected] at ih ⊢
    by_cases hn : name = f.name
    · rw [hn, List.filterMap_cons_some h, List.count_cons_self, List.count_cons_self, ih]
    · rw [List.count_cons_of_ne hn]
      rcases hf : find? fragments name with _ | other
      · rw [List.filterMap_cons_none hf, ih]
      · have hne : other ≠ f := by
          rintro rfl
          exact hn (name_of_find? hf).symm
        rw [List.filterMap_cons_some hf, List.count_cons_of_ne hne, ih]

lemma find?_of_mem_selected {f : Fragment} (h : f ∈ selected order fragments) :
    find? fragments f.name = some f := by
  obtain ⟨name, _, hf⟩ := List.mem_filterMap.mp h
  rwa [name_of_find? hf]

/-- The summary is made of some of the fragments, each as often as the order names it, and of the
status behind them. -/
structure Follows (order : List String) (fragments : List Fragment) (failures : List String)
    (s : Summary) : Prop where
  made : ∃ chosen : List Fragment, (∀ f ∈ chosen, f ∈ fragments ∧ chosen.count f = order.count f.name) ∧
    s.text = String.join (chosen.map Fragment.body) ++ status failures ∧
    s.included = chosen.map Fragment.name
  included_count : ∀ name ∈ s.included, s.included.count name = order.count name

lemma follows_compose (order : List String) (fragments : List Fragment) (failures : List String) :
    (compose order fragments failures).Follows order fragments failures := by
  refine ⟨⟨selected order fragments, fun f hf => ?_, rfl, rfl⟩, fun name hn => ?_⟩
  · have hfind := find?_of_mem_selected hf
    exact ⟨List.mem_of_find?_eq_some hfind, count_selected hfind order⟩
  · rw [included_eq] at hn ⊢
    exact List.count_filter (List.mem_filter.mp hn).2

lemma Follows.nodup_iff {s : Summary} (h : s.Follows order fragments failures) :
    s.included.Nodup ↔ ∀ name ∈ s.included, order.count name = 1 := by
  rw [List.nodup_iff_count_eq_one]
  exact forall₂_congr fun name hn => by rw [h.included_count name hn]

lemma follows_of_ofDirectory {d : Directory} {w v : World σ} {s : Summary}
    (h : (ofDirectory order d failures).perform w = (.ok s, v)) :
    ∃ fragments x, (d.fragmentNames >>= readAll d).perform w = (.ok fragments, x) ∧
      s.Follows order fragments failures := by
  obtain ⟨names, u, hn, h⟩ := Action.perform_bind_ok h
  obtain ⟨fragments, x, hr, h⟩ := Action.perform_bind_ok h
  obtain ⟨_, ha, _⟩ := exists_perform_announce order fragments failures x
  cases ha.symm.trans h
  refine ⟨fragments, x, ?_, follows_compose order fragments failures⟩
  rw [Action.perform_bind, hn]
  exact hr

end Report.Summary

lemma Job.summary_of_conclude {c : Config} {request : Request} {job : Job} {began : Nat}
    {reports : Directory} {results : Workplace.Results} {w v : World σ} {report : JobReport}
    (h : (conclude c request job began reports results).perform w = (.ok report, v)) :
    report.summary =
      .compose c.summaryOrder (fragmentsOf report.outcomes) report.verdict.violations := by
  obtain ⟨ho, _, hverdict, _⟩ := report_of_conclude h
  obtain ⟨u, hw⟩ := written_of_conclude h
  obtain ⟨x, _, herror, hok⟩ := conclude_of_written c request job began hw
  rcases hp : ((summaryOf c results).publish reports request.sharedSummary).perform x with
    ⟨e | path, y⟩
  · cases (herror e y hp).symm.trans h
  · obtain ⟨_, _, h', hs, _⟩ := hok path y hp
    cases h'.symm.trans h
    rw [hs, ho, hverdict]
    rfl

lemma Job.follows_of_conclude {c : Config} {request : Request} {job : Job} {began : Nat}
    {reports : Directory} {results : Workplace.Results} {w v : World σ} {report : JobReport}
    (h : (conclude c request job began reports results).perform w = (.ok report, v)) :
    report.summary.Follows c.summaryOrder (fragmentsOf report.outcomes) report.verdict.violations := by
  rw [summary_of_conclude h]
  exact Summary.follows_compose _ _ _

namespace Config

/-- A summary follows the order of the configuration. It has no fragment twice if the order names
none of them twice, and an order that is not set never does. -/
structure Publishes (c : Config) (fragments : List Fragment) (failures : List String)
    (s : Summary) : Prop extends s.Follows c.summaryOrder fragments failures where
  once_iff : s.included.Nodup ↔ ∀ name ∈ s.included, c.summaryOrder.count name = 1
  once_of_derived : c.ownSummaryOrder = none → s.included.Nodup

lemma publishes_of_follows {c : Config} {fragments : List Fragment} {failures : List String}
    {s : Summary} (h : s.Follows c.summaryOrder fragments failures) :
    c.Publishes fragments failures s := by
  refine ⟨h, h.nodup_iff, fun hn => h.nodup_iff.mpr fun name hm => ?_⟩
  have hd : c.summaryOrder.Nodup := by
    rw [summaryOrder, hn]
    exact nodup_firstOccurrences _
  have hin : name ∈ c.summaryOrder := by
    have hpos : 0 < s.included.count name := List.count_pos_iff.mpr hm
    rw [h.included_count name hm] at hpos
    exact List.count_pos_iff.mp hpos
  exact List.count_eq_one_of_mem hd hin

/-- Whether a job publishes its summary or it is composed again from a report directory, each
fragment in it is there as often as the order names it. -/
theorem published_as_ordered (c : Config) :
    (∀ (runtime : Runtime σ) (request : Request) (w v : World σ) (report : JobReport),
      (c.run runtime request).perform w = (.ok report, v) →
        c.Publishes (Job.fragmentsOf report.outcomes) report.verdict.violations report.summary) ∧
    ∀ (d : Directory) (failures : List String) (w v : World σ) (s : Summary),
      (Summary.ofDirectory c.summaryOrder d failures).perform w = (.ok s, v) →
        ∃ fragments x, (d.fragmentNames >>= Summary.readAll d).perform w = (.ok fragments, x) ∧
          c.Publishes fragments failures s := by
  constructor
  · intro runtime request w v report h
    obtain ⟨_, _, _, _, _, _, hc⟩ := stages_of_run h
    exact publishes_of_follows (Job.follows_of_conclude hc)
  · intro d failures w v s h
    obtain ⟨fragments, x, hr, hf⟩ := Summary.follows_of_ofDirectory h
    exact ⟨fragments, x, hr, publishes_of_follows hf⟩

end Config

def repeatingConfig : Config :=
  { lintConfig with ownSummaryOrder := some ["lint", "lint"] }

def repeatingRun : Except Failure JobReport × World Unit :=
  (repeatingConfig.run (Composition.runtime ⟨none, none, none⟩) (lintRequest none)).perform lintWorld

/-- An order that names a fragment twice is accepted, and its text is published twice. -/
theorem published_twice :
    repeatingConfig.validate = .ok () ∧
    ∃ report v, repeatingRun = (.ok report, v) ∧
      report.summary =
        ⟨Fragment.block "lint" "l\n" ++ Fragment.block "lint" "l\n", ["lint", "lint"]⟩ ∧
      ¬report.summary.included.Nodup := by
  refine ⟨rfl, ?_⟩
  have h : repeatingRun.1.map JobReport.summary =
      .ok ⟨Fragment.block "lint" "l\n" ++ Fragment.block "lint" "l\n", ["lint", "lint"]⟩ := by
    decide +kernel
  rcases hrun : repeatingRun with ⟨e | report, v⟩ <;> rw [hrun] at h
  · cases h
  · have hs := Except.ok.inj h
    exact ⟨report, v, rfl, hs, by simp [hs]⟩

theorem published_as_ordered_lint :
    ∃ report v, lintRun none = (.ok report, v) ∧ report.summary.included.Nodup := by
  have hok : (lintRun none).1.isOk = true := by decide +kernel
  rcases hrun : lintRun none with ⟨e | report, v⟩ <;> rw [hrun] at hok
  · cases hok
  · have h := lintConfig.published_as_ordered.1 (Composition.runtime ⟨none, none, none⟩)
      (lintRequest none) lintWorld v report hrun
    exact ⟨report, v, rfl, h.once_of_derived rfl⟩

end Premerge
