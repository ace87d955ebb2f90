import Premerge.Proofs.Job.Stages
import Premerge.Proofs.Run.Skipping
import Premerge.Proofs.Tool.Table
import Premerge.Service.Compose

namespace Premerge

open Premerge.World
open Outcome (IsBehindCut)

variable {σ : Type}

namespace Verdict

lemma names_of_deadline {outcomes : List Outcome} {given : Option Nat} {seconds : Nat}
    {names : List String} (h : Failure.deadline seconds names ∈ causes outcomes given) :
    names = abortedNames outcomes := by
  have hm := List.mem_filter.mpr ⟨h, (rfl : (Failure.deadline seconds names).isDeadline = true)⟩
  rw [filter_causes, Option.mem_toList, Option.map_eq_some_iff] at hm
  obtain ⟨_, _, he⟩ := hm
  cases he
  rfl

lemma mem_abortedNames_iff {tools : List Tool} {outcomes : List Outcome} {index : Nat}
    {tool : Tool} {o : Outcome} (h : List.Forall₂ (fun tool o => o.IsOf tool) tools outcomes)
    (hd : (tools.map Tool.name).Nodup) (ht : tools[index]? = some tool)
    (ho : outcomes[index]? = some o) :
    tool.name ∈ abortedNames outcomes ↔ o.isAborted = true := by
  obtain ⟨hlt, rfl⟩ := List.getElem?_eq_some_iff.mp ht
  obtain ⟨hlo, rfl⟩ := List.getElem?_eq_some_iff.mp ho
  have hof (place : Nat) (hp : place < tools.length) (hq : place < outcomes.length) :
      outcomes[place].toolName = tools[place].name := (h.get hp hq).toolName
  constructor
  · intro hm
    obtain ⟨other, hf, hn⟩ := List.mem_map.mp hm
    obtain ⟨hmem, ha⟩ := List.mem_filter.mp hf
    obtain ⟨place, hq, rfl⟩ := List.getElem_of_mem hmem
    have hp : place < tools.length := h.length_eq ▸ hq
    rw [hof place hp hq] at hn
    have hlen : place < (tools.map Tool.name).length := by simpa using hp
    obtain rfl : place = index := (List.getElem?_inj hlen hd).mp (by simp [hp, hlt, hn])
    exact ha
  · intro ha
    rw [← hof index hlt hlo]
    exact List.mem_map_of_mem (List.mem_filter.mpr ⟨List.getElem_mem hlo, ha⟩)

end Verdict

/-- What a job with a report did with each tool, by what its change asked for. -/
theorem Config.dispatched_of_run {c : Config} {runtime : Runtime σ} {request : Request}
    {w v : World σ} {report : JobReport}
    (h : (c.run runtime request).perform w = (.ok report, v)) :
    ∃ prepared first, (Job.prepare c request).perform w = (.ok prepared, first) ∧
      report.outcomes.length = c.tools.length ∧
      report.verdict = .ofOutcomes report.outcomes (Job.deadlineOf c report.deadlineExceeded) ∧
      (∀ seconds names, Failure.deadline seconds names ∈
          Verdict.causes report.outcomes (Job.deadlineOf c report.deadlineExceeded) →
        names = Verdict.abortedNames report.outcomes) ∧
      (report.deadlineExceeded = false → ∀ index, ¬IsBehindCut report.outcomes index) ∧
      ∀ index tool o, c.tools[index]? = some tool → report.outcomes[index]? = some o →
        (c.parallelTools = true ∨ ¬IsBehindCut report.outcomes index →
          match tool.dispatch prepared.place.changes with
          | .skip reason => o = .skipped tool reason ∧ o.ran = false ∧
              tool.name ∉ Verdict.abortedNames report.outcomes
          | .run _ => o.ran = true) ∧
        (c.parallelTools = false → IsBehindCut report.outcomes index →
          o.isAborted = true ∧ tool.name ∈ Verdict.abortedNames report.outcomes) := by
  obtain ⟨prepared, first, _, u, hp, _, hc⟩ := stages_of_run h
  obtain ⟨ho, hd, hv, _⟩ := Job.report_of_conclude hc
  have hof := prepared.place.isOf_runTools c.parallelTools (some (u.now + c.jobTimeoutMs)) c.tools u
  have hex := prepared.place.exceeded_runTools_iff c.parallelTools (some (u.now + c.jobTimeoutMs))
    c.tools u
  obtain ⟨table, ht, _, _⟩ := Job.known_of_prepare hp
  have hnames := ToolTable.nodup_names_of_ofList ht
  rw [← ho, ← hd] at hv
  rw [← ho] at hof
  rw [← ho, ← hd] at hex
  refine ⟨prepared, first, hp, hof.length_eq.symm, hv, fun _ _ => Verdict.names_of_deadline, ?_, ?_⟩
  · -- Without a deadline nothing is cut off, so there is nothing to stand behind.
    rintro hn index ⟨earlier, other, _, hother, ha⟩
    rw [hex.mpr ⟨other, List.mem_of_getElem? hother, ha⟩] at hn
    cases hn
  · intro index tool o htool houtcome
    have hmem := Verdict.mem_abortedNames_iff hof hnames htool houtcome
    refine ⟨fun hb => ?_, fun hm hb => ?_⟩
    · rw [ho] at houtcome hb
      have hobeys := Workplace.obeys_runTools htool houtcome hb
      rw [hmem]
      cases hdis : tool.dispatch prepared.place.changes with
      | run words => rwa [Outcome.Obeys, hdis] at hobeys
      | skip reason =>
        have hne := hobeys.not_isAborted hdis
        rw [Outcome.Obeys, hdis] at hobeys
        exact ⟨hobeys, congrArg Outcome.ran hobeys, Bool.eq_false_iff.mp hne⟩
    · rw [hmem, and_self]
      rw [ho, hm] at houtcome hb
      exact Workplace.isAborted_of_isBehindCut houtcome hb

def hangingWorld : World Unit :=
  .fresh (Programs.withRepository fun call =>
    if call.name = "hang" then some ⟨[.write .output [104, 10]], .never, 0⟩ else none)

def switchedOff : Tool := (Tool.ofCommand "lint" ["lint"]).disabled

def hangingConfig (together : Bool) : Config :=
  { Config.standard with
    jobTimeoutSecs := 1
    parallelTools := together
    services := { ServicesConfig.standard with required := [] }
    tools := [Tool.ofCommand "hang" ["hang"], switchedOff] }

def hangingRequest : Request := ⟨".", "main", "HEAD", none, "reports", none⟩

def hangingRun (together : Bool) : Except Failure JobReport × World Unit :=
  ((hangingConfig together).run (Composition.runtime ⟨none, none, none⟩) hangingRequest).perform
    hangingWorld

/-- In its turn, a tool that is switched off is cut off, and the failure of the deadline names
it. -/
theorem cut_off_though_disabled :
    (∀ changes, switchedOff.dispatch changes = .skip Tool.disabledReason) ∧
    (hangingConfig false).tools[1]? = some switchedOff ∧
    ∃ report v, hangingRun false = (.ok report, v) ∧
      report.outcomes[1]? = some (.aborted switchedOff "") ∧
      report.verdict.violations = [(Failure.deadline 1 ["hang", "lint"]).message] := by
  refine ⟨fun _ => rfl, rfl, ?_⟩
  have hr : (hangingRun false).1.map
      (fun report => (report.outcomes[1]?, report.verdict.violations)) =
      .ok (some (.aborted switchedOff ""), [(Failure.deadline 1 ["hang", "lint"]).message]) := by
    decide +kernel
  rcases he : hangingRun false with ⟨e | report, v⟩ <;> rw [he] at hr
  · cases hr
  · obtain ⟨ho, hv⟩ := Prod.mk.inj (Except.ok.inj hr)
    exact ⟨report, v, rfl, ho, hv⟩

theorem dispatched_of_run_together :
    ∃ report v, hangingRun true = (.ok report, v) ∧ report.outcomes.length = 2 ∧
      ∀ o, report.outcomes[1]? = some o → o = .skipped switchedOff Tool.disabledReason ∧
        o.ran = false ∧ switchedOff.name ∉ Verdict.abortedNames report.outcomes := by
  have hok : (hangingRun true).1.isOk = true := by decide +kernel
  rcases he : hangingRun true with ⟨e | report, v⟩ <;> rw [he] at hok
  · cases hok
  · obtain ⟨prepared, _, _, hlen, _, _, _, hall⟩ := Config.dispatched_of_run he
    exact ⟨report, v, rfl, hlen, fun o ho => (hall 1 switchedOff o rfl ho).1 (.inl rfl)⟩

end Premerge
