import Premerge.Proofs.Config.Acceptance
import Premerge.Proofs.Files.Beside
import Premerge.Proofs.Report.Naming

namespace Premerge

open Premerge.Report (Directory Fragment Summary)
open Premerge.Text.Utf8 (encode)
open Premerge.World

variable {σ : Type}

namespace Report.Directory

lemma isEntryName_fragment {name : String} (h : '/' ∉ name.toList) :
    IsEntryName (name ++ fragmentSuffix) :=
  isEntryName_append h (by decide) (by decide)

lemma perform_writeFragment (d : Directory) (fragment : Fragment) (w : World σ) :
    (d.writeFragment fragment).perform w =
      match w.files.write (d.fragmentPath fragment.name) (encode fragment.body) with
      | .error e => (.error (.system e), w)
      | .ok files => (.ok (d.fragmentPath fragment.name), { w with files }) := by
  rw [writeFragment, Action.perform_bind, Action.perform_changeFiles]
  rcases w.files.write (d.fragmentPath fragment.name) (encode fragment.body) with e | files <;> rfl

lemma read_writeFragment {d : Directory} {fragment : Fragment} {w v : World σ} {path : Path}
    (h : (d.writeFragment fragment).perform w = (.ok path, v)) :
    path = d.fragmentPath fragment.name ∧ v.files.read path = .ok (encode fragment.body) := by
  rw [perform_writeFragment] at h
  rcases hw : w.files.write (d.fragmentPath fragment.name) (encode fragment.body) with e | files <;>
    rw [hw] at h
  · cases h
  · cases h
    obtain ⟨location, hs⟩ := FileTree.stores_of_write hw
    exact ⟨rfl, hs.read⟩

lemma locate_writeFragment {d : Directory} {fragment : Fragment} {name : String} (w : World σ)
    (hf : '/' ∉ fragment.name.toList) (hn : '/' ∉ name.toList) (hne : name ≠ fragment.name) :
    ((d.writeFragment fragment).perform w).2.files.locate (d.fragmentPath name) =
      w.files.locate (d.fragmentPath name) := by
  rw [perform_writeFragment]
  rcases hw : w.files.write (d.fragmentPath fragment.name) (encode fragment.body) with e | files
  · rfl
  · exact FileTree.locate_write_of_ne (isEntryName_fragment hf) (isEntryName_fragment hn)
      (append_ne hne _) hw

end Report.Directory

namespace Job

lemma locate_writeFragments (reports : Directory) {fragments : List Fragment} {name : String}
    (w : World σ) (hp : ∀ fragment ∈ fragments, '/' ∉ fragment.name.toList) (hn : '/' ∉ name.toList)
    (hne : ∀ fragment ∈ fragments, name ≠ fragment.name) :
    ((writeFragments reports fragments).perform w).2.files.locate (reports.fragmentPath name) =
      w.files.locate (reports.fragmentPath name) := by
  induction fragments generalizing w with
  | nil => rfl
  | cons fragment rest ih =>
    have hfirst := Directory.locate_writeFragment (d := reports) w (hp _ (.head _)) hn
      (hne _ (.head _))
    rw [writeFragments, Action.perform_bind]
    rcases hw : (reports.writeFragment fragment).perform w with ⟨e | path, v⟩ <;> rw [hw] at hfirst
    · exact hfirst
    · have hrest := ih v (fun other hm => hp other (.tail _ hm)) fun other hm => hne other (.tail _ hm)
      exact hrest.trans hfirst

lemma slash_of_fragment {tools : List Tool} {outcomes : List Outcome}
    (h : List.Forall₂ (fun tool o => o.Reports tool) tools outcomes)
    (hp : ∀ tool ∈ tools, '/' ∉ tool.reportName.toList) {fragment : Fragment}
    (hm : fragment ∈ fragmentsOf outcomes) : '/' ∉ fragment.name.toList := by
  have hn := (names_sublist h).subset (List.mem_map_of_mem hm)
  rw [(Tool.perm_fragmentNames tools).mem_iff, List.mem_append] at hn
  rcases hn with hn | hn
  · obtain ⟨tool, ht, he⟩ := List.mem_map.mp hn
    exact he ▸ hp tool ht
  · rw [List.eq_of_mem_replicate hn]
    decide

end Job

lemma Report.Summary.find?_of_first {before after : List Fragment} {fragment : Fragment}
    (h : fragment.name ∉ before.map Fragment.name) :
    find? (before ++ fragment :: after) fragment.name = some fragment := by
  have hb : find? before fragment.name = none := by
    simpa [find?] using h
  rw [find?] at hb ⊢
  rw [List.find?_append, hb]
  simp

/-- In an accepted configuration the fragments have names of their own, but for the coverage
summaries if several tools can give one. A fragment with a name of its own is found under it, and
where reports are named by plain names, no later fragment is written over its file. -/
theorem Config.only_coverage_repeats {c : Config} (hc : c.validate = .ok ())
    {outcomes : List Outcome} (ho : List.Forall₂ (fun tool o => o.Reports tool) c.tools outcomes) :
    (∀ name, name ≠ Fragment.coverageName →
      ((Job.fragmentsOf outcomes).map Fragment.name).count name ≤ 1) ∧
    ((Job.fragmentsOf outcomes).map Fragment.name).count Fragment.coverageName ≤
      Tool.mostCoverages c.tools ∧
    (Tool.mostCoverages c.tools ≤ 1 → ((Job.fragmentsOf outcomes).map Fragment.name).Nodup) ∧
    ∀ before fragment after, Job.fragmentsOf outcomes = before ++ fragment :: after →
      fragment.name ≠ Fragment.coverageName ∨ Tool.mostCoverages c.tools ≤ 1 →
      Summary.find? (Job.fragmentsOf outcomes) fragment.name = some fragment ∧
      ((∀ tool ∈ c.tools, '/' ∉ tool.reportName.toList) →
        ∀ (reports : Directory) (w v : World σ) (path : Path),
          (reports.writeFragment fragment).perform w = (.ok path, v) →
          path = reports.fragmentPath fragment.name ∧
            ((Job.writeFragments reports after).perform v).2.files.read path =
              .ok (encode fragment.body)) := by
  have hd := nodup_reports_of_validate hc
  refine ⟨fun name hn => Job.count_name_le_one ho hd (.inl hn), Job.count_coverage_le ho,
    fun hm => List.nodup_iff_count_le_one.mpr fun name => Job.count_name_le_one ho hd (.inr hm), ?_⟩
  intro before fragment after he hown
  -- A name that is given once is neither given before nor after.
  have hone := Job.count_name_le_one ho hd hown
  rw [he, List.map_append, List.map_cons, List.count_append, List.count_cons_self] at hone
  have hbefore : fragment.name ∉ before.map Fragment.name := List.count_eq_zero.mp (by omega)
  have hafter : fragment.name ∉ after.map Fragment.name := List.count_eq_zero.mp (by omega)
  refine ⟨he ▸ Summary.find?_of_first hbefore, fun hp reports w v path hw => ?_⟩
  obtain ⟨rfl, hr⟩ := Directory.read_writeFragment hw
  have hplain : ∀ other ∈ fragment :: after, '/' ∉ other.name.toList := fun other hm =>
    Job.slash_of_fragment ho hp (he ▸ List.mem_append_right _ hm)
  have hl := Job.locate_writeFragments reports v
    (fun other hm => hplain other (.tail _ hm)) (hplain _ (.head _))
    fun other hm hn => hafter (hn ▸ List.mem_map_of_mem hm)
  exact ⟨rfl, (FileTree.read_of_locate hl).trans hr⟩

example : (FileTree.fresh.write (Directory.fragmentPath ⟨"."⟩ "./lint") [1]).bind
    (·.read (Directory.fragmentPath ⟨"."⟩ "lint")) = .ok [1] := by decide +kernel

def twinRunners : Config :=
  { Config.standard with
    tools := [(Tool.ofCommand "unit" ["test"]).withKind .testRunner,
      (Tool.ofCommand "api" ["test"]).withKind .testRunner] }

def coverageOutput (total : String) : String :=
  "\n---------- coverage:" ++ total

def twinOutcomes : List Outcome :=
  [{ Outcome.ofTool ((Tool.ofCommand "unit" ["test"]).withKind .testRunner) (.finished 0) with
      output := coverageOutput "1" },
    { Outcome.ofTool ((Tool.ofCommand "api" ["test"]).withKind .testRunner) (.finished 0) with
      output := coverageOutput "2" }]

def coverageFragment (total : String) : Fragment :=
  ⟨Fragment.coverageName, Fragment.block Fragment.coverageName ("---------- coverage:" ++ total)⟩

/-- Two test runners have one fragment file: the later summary is in it, and the earlier one is in
the summary of the job. -/
theorem twin_coverages_collide :
    twinRunners.validate = .ok () ∧
    List.Forall₂ (fun tool o => o.Reports tool) twinRunners.tools twinOutcomes ∧
    Job.fragmentsOf twinOutcomes = [coverageFragment "1", coverageFragment "2"] ∧
    ¬((Job.fragmentsOf twinOutcomes).map Fragment.name).Nodup ∧
    Summary.find? (Job.fragmentsOf twinOutcomes) Fragment.coverageName =
      some (coverageFragment "1") ∧
    ((Job.writeFragments ⟨"."⟩ (Job.fragmentsOf twinOutcomes)).perform
        (.fresh fun _ => none)).2.files.read "./coverage-report.md" =
      .ok (encode (coverageFragment "2").body) := by
  have hf : Job.fragmentsOf twinOutcomes = [coverageFragment "1", coverageFragment "2"] := by
    decide +kernel
  rw [hf]
  exact ⟨rfl, .cons ⟨rfl, rfl⟩ (.cons ⟨rfl, rfl⟩ .nil), rfl, by decide, rfl, by decide +kernel⟩

theorem only_coverage_repeats_twin :
    twinRunners.validate = .ok () ∧
    List.Forall₂ (fun tool o => o.Reports tool) twinRunners.tools twinOutcomes ∧
    Tool.mostCoverages twinRunners.tools = 2 ∧
    ((Job.fragmentsOf twinOutcomes).map Fragment.name).count Fragment.coverageName ≤ 2 := by
  have hc : twinRunners.validate = .ok () := by rfl
  have ho : List.Forall₂ (fun tool o => o.Reports tool) twinRunners.tools twinOutcomes :=
    .cons ⟨rfl, rfl⟩ (.cons ⟨rfl, rfl⟩ .nil)
  have hm : Tool.mostCoverages twinRunners.tools = 2 := by decide
  exact ⟨hc, ho, hm, hm ▸ (Config.only_coverage_repeats (σ := Unit) hc ho).2.1⟩

end Premerge
