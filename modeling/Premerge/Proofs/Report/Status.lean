import Premerge.Proofs.Data.Records
import Premerge.Proofs.Report.Repeats
import Premerge.Proofs.Text.Segments

namespace Premerge

open Premerge.Report (Fragment Summary)
open Premerge.World
open Text.Line (IsCut segments joined)

variable {σ : Type}

namespace Report

namespace Summary

variable {order failures : List String} {fragments : List Fragment}

def statusItem (failure : String) : List Char :=
  "- ".toList ++ (joined failure).toList

def statusLines (failures : List String) : List (List Char) :=
  statusHeading.toList :: [] :: failures.map statusItem

lemma isCut_items (failures : List String) :
    IsCut (String.join (failures.map statusLine)).toList (failures.map statusItem) [] := by
  refine Text.Line.isCut_join (fun failure _ => ?_) fun failure _ => ?_
  · simp [statusLine, statusItem]
  · simp [statusItem, Text.Line.not_mem_joined]

lemma isCut_status (h : failures ≠ []) :
    IsCut (status failures).toList (statusLines failures) [] := by
  have hstatus : (status failures).toList = (statusHeading.toList ++ ['\n']) ++
      (([] ++ ['\n']) ++ (String.join (failures.map statusLine)).toList) := by
    simp [status, h]
  rw [hstatus]
  exact ((isCut_items failures).cons List.not_mem_nil).cons (by decide)

lemma status_eq_empty_iff : status failures = "" ↔ failures = [] := by
  cases failures with
  | nil => simp [status]
  | cons failure rest => simp [status, statusHeading, ← String.toList_inj]

def failureOf? : List Char → Option String
  | '-' :: ' ' :: failure => some (String.ofList failure)
  | _ => none

def failuresOf? (text : String) : Option (List String) :=
  match segments text.toList with
  | [] => some []
  | heading :: [] :: items => if heading = statusHeading.toList then items.mapM failureOf? else none
  | _ => none

lemma failuresOf?_status (failures : List String) :
    failuresOf? (status failures) = some (failures.map joined) := by
  by_cases h : failures = []
  · subst h
    rfl
  · have hitems : failures.map statusItem =
        (failures.map joined).map fun failure => '-' :: ' ' :: failure.toList := by
      rw [List.map_map]
      rfl
    rw [failuresOf?, (isCut_status h).segments_of_ended, statusLines, hitems]
    exact (if_pos rfl).trans (Data.mapM_map_eq_some fun failure _ => by simp [failureOf?])

example : failuresOf? (status ["a\n- b", ""]) = some ["a - b", ""] := by
  decide +kernel

/-- The text is the bodies of the fragments that the order asks for, and behind them the part that tells
the failures. -/
structure Tells (order : List String) (fragments : List Fragment) (failures : List String)
    (s : Summary) (bodies told : String) : Prop where
  text_eq : s.text = bodies ++ told
  included_eq : s.included = order.filter (· ∈ fragments.map Fragment.name)
  bodies_eq : ∃ chosen : List Fragment, bodies = String.join (chosen.map Fragment.body) ∧
    chosen.map Fragment.name = s.included ∧ ∀ f ∈ chosen, find? fragments f.name = some f
  empty_iff : told = "" ↔ failures = []
  lines : failures ≠ [] → IsCut told.toList (statusLines failures) []
  read_eq : failuresOf? told = some (failures.map joined)

lemma tells_compose (order : List String) (fragments : List Fragment) (failures : List String) :
    (compose order fragments failures).Tells order fragments failures
      (String.join ((selected order fragments).map Fragment.body)) (status failures) where
  text_eq := rfl
  included_eq := included_eq order fragments failures
  bodies_eq := ⟨_, rfl, rfl, fun _ => find?_of_mem_selected⟩
  empty_iff := status_eq_empty_iff
  lines := isCut_status
  read_eq := failuresOf?_status failures

end Summary

namespace Fragment

def IsClosed (text : String) : Prop :=
  ∃ ended, IsCut text.toList ended []

lemma isClosed_block (name text : String) : IsClosed (block name text) := by
  obtain ⟨ended, rest, hc⟩ := Text.Line.exists_isCut
    ((opening name).toList ++ Text.trimLineEnds text.toList ++ "\n```\n\n</details>\n".toList)
  refine ⟨ended ++ [rest], ?_⟩
  have hblock : (block name text).toList = (opening name).toList ++ Text.trimLineEnds text.toList ++
      "\n```\n\n</details>\n".toList ++ ['\n'] := by
    simp [block, closing, fence]
  rw [hblock]
  exact hc.append_lineFeed

lemma isClosed_of_ofText? {name text : String} {f : Fragment} (h : f ∈ ofText? name text) :
    IsClosed f.body := by
  rw [ofText?] at h
  split at h
  · cases h
  · cases h
    exact isClosed_block name text

lemma isClosed_of_ofOutput {name raw : String} {kind : ToolKind} {f : Fragment}
    (h : f ∈ ofOutput name kind raw) : IsClosed f.body := by
  cases kind with
  | generic => exact isClosed_of_ofText? (Option.mem_toList.mp h)
  | migrationCheck => exact isClosed_of_ofText? (Option.mem_toList.mp h)
  | testRunner =>
    simp only [ofOutput] at h
    split at h
    · rcases List.mem_append.mp h with hn | hc
      · exact isClosed_of_ofText? (Option.mem_toList.mp hn)
      · exact isClosed_of_ofText? (Option.mem_toList.mp hc)
    · exact isClosed_of_ofText? (Option.mem_toList.mp h)

lemma isClosed_join {fragments : List Fragment} (h : ∀ f ∈ fragments, IsClosed f.body) :
    IsClosed (String.join (fragments.map Fragment.body)) := by
  induction fragments with
  | nil => exact ⟨[], Text.Line.isCut_nil⟩
  | cons f rest ih =>
    obtain ⟨hf, hrest⟩ := List.forall_mem_cons.mp h
    obtain ⟨ended, hc⟩ := hf
    obtain ⟨others, ho⟩ := ih hrest
    refine ⟨ended ++ others, ?_⟩
    simpa using hc.append ho

end Fragment

end Report

lemma Job.isClosed_of_fragmentsOf {outcomes : List Outcome} {f : Fragment}
    (h : f ∈ fragmentsOf outcomes) : Fragment.IsClosed f.body := by
  obtain ⟨o, _, hf⟩ := List.mem_flatMap.mp h
  exact Fragment.isClosed_of_ofOutput hf

namespace Config

/-- The status behind the fragments tells each failure once, whatever they are. A job has one if it
fails, and it tells each violation of its verdict. -/
theorem status_tells_violations :
    (∀ order fragments failures, ∃ bodies told,
      (Summary.compose order fragments failures).Tells order fragments failures bodies told) ∧
    ∀ (c : Config) (runtime : Runtime σ) (request : Request) (w v : World σ) (report : JobReport),
      (c.run runtime request).perform w = (.ok report, v) →
        report.verdict.violations =
          (Verdict.causes report.outcomes (Job.deadlineOf c report.deadlineExceeded)).map
            Failure.message ∧
        ∃ bodies told,
          report.summary.Tells c.summaryOrder (Job.fragmentsOf report.outcomes)
            report.verdict.violations bodies told ∧
          (told ≠ "" ↔ report.success = false) ∧
          segments report.summary.text.toList =
            segments bodies.toList ++
              if report.success then [] else Summary.statusLines report.verdict.violations := by
  refine ⟨fun order fragments failures => ⟨_, _, Summary.tells_compose order fragments failures⟩,
    fun c runtime request w v report h => ?_⟩
  obtain ⟨_, _, _, _, _, _, hc⟩ := stages_of_run h
  obtain ⟨ho, hd, hverdict, hsuccess⟩ := Job.report_of_conclude hc
  have htells := Summary.tells_compose c.summaryOrder (Job.fragmentsOf report.outcomes)
    report.verdict.violations
  rw [← Job.summary_of_conclude hc] at htells
  have hpassed : report.success = true ↔ report.verdict.violations = [] := by
    rw [hsuccess, hverdict]
    simp [Verdict.ofOutcomes]
  refine ⟨by rw [hverdict, ho, hd]; rfl, _, _, htells, ?_, ?_⟩
  · rw [ne_eq, htells.empty_iff, ← hpassed, Bool.not_eq_true]
  · have hclosed : ∀ f ∈ Summary.selected c.summaryOrder (Job.fragmentsOf report.outcomes),
        Fragment.IsClosed f.body := fun f hf =>
      Job.isClosed_of_fragmentsOf (List.mem_of_find?_eq_some (Summary.find?_of_mem_selected hf))
    obtain ⟨ended, hb⟩ := Fragment.isClosed_join hclosed
    rw [htells.text_eq, String.toList_append, hb.segments_of_ended]
    by_cases hviolations : report.verdict.violations = []
    · rw [if_pos (hpassed.mpr hviolations), htells.empty_iff.mpr hviolations]
      simpa using hb.segments_of_ended
    · rw [if_neg (mt hpassed.mp hviolations)]
      exact (hb.append (htells.lines hviolations)).segments_of_ended

end Config

def brokenWorld : World Unit :=
  .fresh (Programs.withRepository fun call =>
    match call.name with
    | "lint" => some ⟨[.write .output [108, 10]], .exit 0, 0⟩
    | "test" => some ⟨[.write .errors [116, 10]], .exit 1, 0⟩
    | "watch" => some ⟨[], .never, 0⟩
    | _ => none)

def brokenConfig (tools : List Tool) : Config :=
  { Config.standard with
    jobTimeoutSecs := 1
    services := { ServicesConfig.standard with required := [] }
    tools := Tool.ofCommand "lint" ["lint"] :: tools }

def brokenRun (tools : List Tool) : Except Failure JobReport × World Unit :=
  ((brokenConfig tools).run (Composition.runtime ⟨none, none, none⟩) (lintRequest none)).perform
    brokenWorld

def failingTool : Tool := (Tool.ofCommand "test" ["test"]).fatal

def endlessTool : Tool := Tool.ofCommand "watch" ["watch"]

theorem status_tells_violations_broken :
    (∃ report v bodies told, brokenRun [failingTool] = (.ok report, v) ∧ report.success = false ∧
      report.summary.text = bodies ++ told ∧
      Summary.failuresOf? told = some ["tool test failed: exited with code 1"]) ∧
    ∃ report v bodies told, brokenRun [endlessTool] = (.ok report, v) ∧ report.success = false ∧
      report.summary.text = bodies ++ told ∧
      Summary.failuresOf? told = some ["job deadline of 1s exceeded, aborted: watch"] := by
  have htold {tools : List Tool} {failures : List String}
      (h : (brokenRun tools).1.map (fun report => (report.success, report.verdict.violations)) =
        .ok (false, failures)) :
      ∃ report v bodies told, brokenRun tools = (.ok report, v) ∧ report.success = false ∧
        report.summary.text = bodies ++ told ∧
        Summary.failuresOf? told = some (failures.map joined) := by
    rcases hrun : brokenRun tools with ⟨e | report, v⟩ <;> rw [hrun] at h
    · cases h
    obtain ⟨hs, hv⟩ := Prod.mk.inj (Except.ok.inj h)
    obtain ⟨_, bodies, told, htells, _, _⟩ := Config.status_tells_violations.2 _ _ _ _ _ _ hrun
    rw [hv] at htells
    exact ⟨report, v, bodies, told, rfl, hs, htells.text_eq, htells.read_eq⟩
  have htest := @htold [failingTool] ["tool test failed: exited with code 1"] (by decide +kernel)
  have hwatch := @htold [endlessTool] ["job deadline of 1s exceeded, aborted: watch"]
    (by decide +kernel)
  exact ⟨htest, hwatch⟩

end Premerge
