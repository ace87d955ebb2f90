import Mathlib.Tactic.Lemma
import Mathlib.Data.List.Forall2
import Mathlib.Data.List.Nodup
import Premerge.Config.Validation
import Premerge.Job.Validation

namespace Premerge

open Premerge.Report (Fragment Sections)

structure Outcome.Reports (tool : Tool) (o : Outcome) : Prop where
  reportName : o.reportName = tool.reportName
  kind : o.kind = tool.kind

namespace Report.Fragment

lemma name_of_ofText? {name text : String} {fragment : Fragment}
    (h : ofText? name text = some fragment) : fragment.name = name := by
  unfold ofText? at h
  split at h
  · cases h
  · cases h
    rfl

lemma names_ofText? (name text : String) :
    ((ofText? name text).toList.map Fragment.name).Sublist [name] := by
  rcases h : ofText? name text with _ | fragment
  · exact List.nil_sublist _
  · simp [name_of_ofText? h]

end Report.Fragment

lemma Outcome.Reports.names_sublist {tool : Tool} {o : Outcome} (h : o.Reports tool) :
    ((Fragment.ofOutput o.reportName o.kind o.output).map Fragment.name).Sublist
      tool.fragmentNames := by
  unfold Fragment.ofOutput Tool.fragmentNames
  rw [h.reportName, h.kind]
  cases tool.kind with
  | generic => exact Fragment.names_ofText? _ _
  | migrationCheck => exact Fragment.names_ofText? _ _
  | testRunner =>
    dsimp only
    have hn := Fragment.names_ofText? tool.reportName
    rcases (Sections.ofOutput (Report.Escape.strip o.output).toList).coverage with _ | coverage
    · exact (hn _).trans (List.sublist_append_left _ [Fragment.coverageName])
    · rw [List.map_append]
      exact (hn _).append (Fragment.names_ofText? _ _)

namespace Job

variable {tools : List Tool} {outcomes : List Outcome}

lemma fragmentsOf_cons (o : Outcome) (rest : List Outcome) :
    fragmentsOf (o :: rest) =
      (if o.ran then Fragment.ofOutput o.reportName o.kind o.output else []) ++
        fragmentsOf rest := by
  unfold fragmentsOf
  cases h : o.ran <;> simp [h]

lemma names_sublist (h : List.Forall₂ (fun tool o => o.Reports tool) tools outcomes) :
    ((fragmentsOf outcomes).map Fragment.name).Sublist (tools.flatMap Tool.fragmentNames) := by
  induction h with
  | nil => exact List.nil_sublist _
  | @cons tool o tools outcomes ho _ ih =>
    rw [fragmentsOf_cons, List.map_append, List.flatMap_cons]
    refine List.Sublist.append ?_ ih
    cases o.ran with
    | true => exact ho.names_sublist
    | false => exact List.nil_sublist _

end Job

def Tool.isTestRunner (tool : Tool) : Bool :=
  tool.kind == .testRunner

lemma Tool.perm_fragmentNames (tools : List Tool) :
    (tools.flatMap fragmentNames).Perm
      (tools.map reportName ++ List.replicate (tools.countP isTestRunner) Fragment.coverageName) := by
  induction tools with
  | nil => exact .refl _
  | cons tool rest ih =>
    rw [List.flatMap_cons, List.map_cons, List.cons_append]
    cases ht : tool.isTestRunner with
    | true =>
      have hn : tool.fragmentNames = [tool.reportName, Fragment.coverageName] := by
        simp [fragmentNames, beq_iff_eq.mp ht]
      rw [hn, List.countP_cons_of_pos ht, List.replicate_succ]
      exact .cons _ ((ih.cons _).trans List.perm_middle.symm)
    | false =>
      have hn : tool.fragmentNames = [tool.reportName] := by
        unfold fragmentNames
        cases hk : tool.kind <;> simp_all [isTestRunner]
      rw [hn, List.countP_cons_of_neg (by simp [ht])]
      exact .cons _ ih

/-- The most fragments that tools can give under the name of the coverage summary: one for each test
runner, and one for each report of that name. -/
def Tool.mostCoverages (tools : List Tool) : Nat :=
  (tools.map reportName).count Fragment.coverageName + tools.countP isTestRunner

namespace Job

variable {tools : List Tool} {outcomes : List Outcome}

lemma count_name_le (h : List.Forall₂ (fun tool o => o.Reports tool) tools outcomes)
    (name : String) : ((fragmentsOf outcomes).map Fragment.name).count name ≤
      (tools.map Tool.reportName).count name +
        (List.replicate (tools.countP Tool.isTestRunner) Fragment.coverageName).count name := by
  have hs := (names_sublist h).count_le name
  rwa [(Tool.perm_fragmentNames tools).count_eq, List.count_append] at hs

lemma count_coverage_le (h : List.Forall₂ (fun tool o => o.Reports tool) tools outcomes) :
    ((fragmentsOf outcomes).map Fragment.name).count Fragment.coverageName ≤
      Tool.mostCoverages tools := by
  have hc := count_name_le h Fragment.coverageName
  rwa [List.count_replicate_self] at hc

lemma count_name_le_one (h : List.Forall₂ (fun tool o => o.Reports tool) tools outcomes)
    (hd : (tools.map Tool.reportName).Nodup) {name : String}
    (hn : name ≠ Fragment.coverageName ∨ Tool.mostCoverages tools ≤ 1) :
    ((fragmentsOf outcomes).map Fragment.name).count name ≤ 1 := by
  by_cases he : name = Fragment.coverageName
  · have hc := count_coverage_le h
    have hone := hn.resolve_left fun hne => hne he
    rw [he]
    omega
  · have hc := count_name_le h name
    have hr := List.nodup_iff_count_le_one.mp hd name
    have hz : (List.replicate (tools.countP Tool.isTestRunner) Fragment.coverageName).count name = 0 :=
      List.count_eq_zero.mpr fun hm => he (List.eq_of_mem_replicate hm)
    omega

end Job

end Premerge
