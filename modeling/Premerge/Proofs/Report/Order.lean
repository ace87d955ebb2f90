import Premerge.Proofs.Config.Acceptance
import Premerge.Proofs.Report.Naming

namespace Premerge

open Premerge.Report (Fragment Summary)

variable {σ : Type}

namespace Report.Summary

variable {order : List String} {fragments : List Fragment}

lemma unplaced_eq_nil_iff :
    unplaced order fragments = [] ↔ ∀ fragment ∈ fragments, fragment.name ∈ order := by
  simp [unplaced]

lemma perform_announce (h : ∀ fragment ∈ fragments, fragment.name ∈ order)
    (failures : List String) (w : World σ) :
    (announce order fragments failures).perform w = (.ok (compose order fragments failures), w) := by
  rw [announce, unplaced_eq_nil_iff.mpr h, List.forIn_nil]
  rfl

lemma find?_isSome {fragment : Fragment} (h : fragment ∈ fragments) :
    (find? fragments fragment.name).isSome := by
  rw [find?, List.find?_isSome]
  exact ⟨fragment, h, beq_self_eq_true _⟩

lemma name_of_find? {name : String} {fragment : Fragment}
    (h : find? fragments name = some fragment) : fragment.name = name := by
  simpa using List.find?_some h

lemma mem_selected {fragment : Fragment} (h : find? fragments fragment.name = some fragment)
    (ho : fragment.name ∈ order) : fragment ∈ selected order fragments :=
  List.mem_filterMap.mpr ⟨_, ho, h⟩

lemma mem_included {fragment : Fragment} (h : fragment ∈ fragments) (ho : fragment.name ∈ order)
    (failures : List String) : fragment.name ∈ (compose order fragments failures).included := by
  obtain ⟨first, hf⟩ := Option.isSome_iff_exists.mp (find?_isSome h)
  have hn := name_of_find? hf
  refine List.mem_map.mpr ⟨first, mem_selected ?_ ?_, hn⟩
  · rw [hn, hf]
  · rwa [hn]

end Report.Summary

namespace Config

variable {c : Config} {outcomes : List Outcome}

lemma mem_summaryOrder_of_fragment (hc : c.validate = .ok ())
    (ho : List.Forall₂ (fun tool o => o.Reports tool) c.tools outcomes) {o : Outcome}
    (hm : o ∈ outcomes) {fragment : Fragment}
    (hf : fragment ∈ Fragment.ofOutput o.reportName o.kind o.output) :
    fragment.name ∈ c.summaryOrder := by
  obtain ⟨tool, ht, hr⟩ : ∃ tool ∈ c.tools, o.Reports tool := by
    obtain ⟨index, hlt, rfl⟩ := List.getElem_of_mem hm
    have hlen := ho.length_eq
    exact ⟨c.tools[index], List.getElem_mem _, by simpa using ho.get (by omega) hlt⟩
  exact mem_summaryOrder hc ht (hr.names_sublist.subset (List.mem_map_of_mem hf))

/-- Whatever the tools of an accepted configuration put out, the order has a place for each of their
fragments: none is complained of, and none is left out of the summary for want of one. -/
theorem every_fragment_has_place (hc : c.validate = .ok ())
    (ho : List.Forall₂ (fun tool o => o.Reports tool) c.tools outcomes) :
    (∀ o ∈ outcomes, ∀ fragment ∈ Fragment.ofOutput o.reportName o.kind o.output,
      fragment.name ∈ c.summaryOrder) ∧
    (∀ (failures : List String) (w : World σ),
      (Summary.announce c.summaryOrder (Job.fragmentsOf outcomes) failures).perform w =
        (.ok (Summary.compose c.summaryOrder (Job.fragmentsOf outcomes) failures), w)) ∧
    (∀ (failures : List String), ∀ fragment ∈ Job.fragmentsOf outcomes,
      fragment.name ∈
        (Summary.compose c.summaryOrder (Job.fragmentsOf outcomes) failures).included ∧
      (Summary.find? (Job.fragmentsOf outcomes) fragment.name = some fragment →
        fragment ∈ Summary.selected c.summaryOrder (Job.fragmentsOf outcomes))) ∧
    (c.ownSummaryOrder = none → c.summaryOrder.Nodup) := by
  have hplace : ∀ o ∈ outcomes, ∀ fragment ∈ Fragment.ofOutput o.reportName o.kind o.output,
      fragment.name ∈ c.summaryOrder := fun _ hm _ hf => mem_summaryOrder_of_fragment hc ho hm hf
  have hall : ∀ fragment ∈ Job.fragmentsOf outcomes, fragment.name ∈ c.summaryOrder := by
    intro fragment hm
    obtain ⟨o, hm, hf⟩ := List.mem_flatMap.mp hm
    exact hplace o (List.mem_filter.mp hm).1 fragment hf
  refine ⟨hplace, fun failures w => Summary.perform_announce hall failures w,
    fun failures fragment hm => ⟨?_, ?_⟩, fun hn => ?_⟩
  · exact Summary.mem_included hm (hall fragment hm) failures
  · exact fun hf => Summary.mem_selected hf (hall fragment hm)
  · rw [summaryOrder, hn]
    exact nodup_firstOccurrences _

def orderedConfig : Config :=
  { Config.standard with
    ownSummaryOrder := some ["coverage", "unit", "docs", "lint"]
    tools := [Tool.ofCommand "lint" ["lint"], (Tool.ofCommand "unit" ["test"]).withKind .testRunner] }

def orderedOutcomes : List Outcome :=
  [Outcome.aborted (Tool.ofCommand "lint" ["lint"]) "half\n",
    { Outcome.ofTool ((Tool.ofCommand "unit" ["test"]).withKind .testRunner) (.finished 1) with
      output := "start\nok\n---------- coverage: all\nTOTAL 9\nend\n" }]

theorem every_fragment_has_place_ordered :
    orderedConfig.validate = .ok () ∧
    List.Forall₂ (fun tool o => o.Reports tool) orderedConfig.tools orderedOutcomes ∧
    (Job.fragmentsOf orderedOutcomes).map Fragment.name = ["lint", "unit", "coverage"] ∧
    ∀ o ∈ orderedOutcomes, ∀ fragment ∈ Fragment.ofOutput o.reportName o.kind o.output,
      fragment.name ∈ orderedConfig.summaryOrder := by
  have hc : orderedConfig.validate = .ok () := by rfl
  have ho : List.Forall₂ (fun tool o => o.Reports tool) orderedConfig.tools orderedOutcomes :=
    .cons ⟨rfl, rfl⟩ (.cons ⟨rfl, rfl⟩ .nil)
  exact ⟨hc, ho, by decide +kernel, (every_fragment_has_place (σ := Unit) hc ho).1⟩

end Config

end Premerge
