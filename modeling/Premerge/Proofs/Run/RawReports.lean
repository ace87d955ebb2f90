import Premerge.Proofs.Files.Filling
import Premerge.Proofs.Run.Skipping

namespace Premerge

open Premerge.Change (ChangeSet)
open Premerge.Report (Directory)
open Premerge.World
open Premerge.World.FileTree (FilledWith)

variable {σ : Type}

def Tool.runsFor (changes : ChangeSet) (tool : Tool) : Bool :=
  match tool.dispatch changes with
  | .run (_ :: _) => true
  | _ => false

/-- The tools whose turn came: all that run together, and of those that run one after the other the
ones up to the first that the deadline cut off. -/
def Outcome.turns (together : Bool) (outcomes : List Outcome) (tools : List Tool) : List Tool :=
  if together then tools else tools.take (outcomes.findIdx Outcome.isAborted + 1)

lemma Outcome.turns_cons {o : Outcome} (h : o.isAborted = false) (outcomes : List Outcome)
    (tool : Tool) (rest : List Tool) :
    turns false (o :: outcomes) (tool :: rest) = tool :: turns false outcomes rest := by
  simp [turns, List.findIdx_cons, h]

lemma Outcome.turns_of_cut {o : Outcome} (h : o.isAborted = true) (outcomes : List Outcome)
    (tool : Tool) (rest : List Tool) : turns false (o :: outcomes) (tool :: rest) = [tool] := by
  simp [turns, List.findIdx_cons, h]

lemma Outcome.turns_sublist (together : Bool) (outcomes : List Outcome) (tools : List Tool) :
    (turns together outcomes tools).Sublist tools := by
  cases together with
  | true => exact .refl tools
  | false => exact List.take_sublist _ _

namespace Report.Directory

structure Fits (d : Directory) (report : String) : Prop where
  plain : '/' ∉ report.toList
  path : FileTree.pathFault? (d.rawPath report) = none
  name : (report ++ rawSuffix).utf8ByteSize ≤ FileTree.longestName

def rawNames (changes : ChangeSet) (tools : List Tool) : List String :=
  ((tools.filter (Tool.runsFor changes)).map Tool.reportName).map (· ++ rawSuffix)

variable {changes : ChangeSet} {tool : Tool}

lemma rawNames_cons (changes : ChangeSet) (tool : Tool) (rest : List Tool) :
    rawNames changes (tool :: rest) = rawNames changes [tool] ++ rawNames changes rest := by
  cases h : tool.runsFor changes <;> simp [rawNames, h]

lemma rawNames_of_runsFor (h : tool.runsFor changes = true) :
    rawNames changes [tool] = [tool.reportName ++ rawSuffix] := by
  simp [rawNames, h]

lemma rawNames_of_not_runsFor (h : tool.runsFor changes = false) : rawNames changes [tool] = [] := by
  simp [rawNames, h]

end Report.Directory

open Report.Directory (Fits rawNames)

namespace Workplace

variable {p : Workplace} {base : Location} {names : List String} {tool : Tool} {tools : List Tool}
  {w v : World σ}

lemma runsFor_of_running {process : Process} (h : p.launch tool w = (.running process, v)) :
    tool.runsFor p.changes = true := by
  obtain ⟨_, _, _, hd, _⟩ := launch_running h
  rw [Tool.runsFor, hd]

lemma filledWith_launch (hf : p.reports.Fits tool.reportName)
    (h : w.files.FilledWith p.reports.path base names) :
    (p.launch tool w).2.files.FilledWith p.reports.path base
      (rawNames p.changes [tool] ++ names) := by
  have hentry := isEntryName_raw hf.plain
  obtain ⟨opened, hw⟩ := (FileTree.exists_write_iff []).mpr (h.canWrite hentry hf.path hf.name)
  have hopened := h.write hentry hw
  rcases p.launch_cases tool w with
    ⟨reason, hd, hl⟩ | ⟨words, e, v, hd, hs, hl⟩ | ⟨words, behaviour, v, hd, hs, hl⟩ <;> rw [hl]
  · have hr : tool.runsFor p.changes = false := by rw [Tool.runsFor, hd]
    rw [Directory.rawNames_of_not_runsFor hr]
    exact h
  · -- The raw report is there even if the program does not start, but not if there is no program.
    rcases startProgram_error hs with
      ⟨rfl, _, rfl⟩ | ⟨cause, _, hn, _⟩ | ⟨program, arguments, files, cause, rfl, hw', _, _, rfl⟩
    · have hr : tool.runsFor p.changes = false := by rw [Tool.runsFor, hd]
      rw [Directory.rawNames_of_not_runsFor hr]
      exact h
    · cases hn.symm.trans hw
    · have hr : tool.runsFor p.changes = true := by rw [Tool.runsFor, hd]
      cases hw'.symm.trans hw
      rw [Directory.rawNames_of_runsFor hr]
      exact hopened
  · obtain ⟨program, arguments, files, rfl, hw', _, rfl⟩ := startProgram_ok hs
    have hr : tool.runsFor p.changes = true := by rw [Tool.runsFor, hd]
    cases hw'.symm.trans hw
    rw [Directory.rawNames_of_runsFor hr]
    exact hopened

lemma preservesFor_filledWith (p : Workplace) (base : Location) (names : List String) :
    p.PreservesFor (fun tool => '/' ∉ tool.reportName.toList ∧
        tool.reportName ++ Directory.rawSuffix ∈ names)
      (FilledWith · p.reports.path base names) :=
  fun _ _ _ _ hq h hw => h.write_again (isEntryName_raw hq.1) hq.2 hw

lemma filledWith_launchAll (hf : ∀ tool ∈ tools, p.reports.Fits tool.reportName)
    (h : w.files.FilledWith p.reports.path base names) :
    (p.launchAll tools w).2.files.FilledWith p.reports.path base
      (rawNames p.changes tools ++ names) := by
  induction tools generalizing w names with
  | nil => exact h
  | cons tool rest ih =>
    have hrest := ih (fun other hm => hf other (.tail _ hm)) (filledWith_launch (hf tool (.head _)) h)
    rw [Directory.rawNames_cons]
    exact hrest.swap

lemma filledWith_runInTurn {deadline : Option Nat}
    (hf : ∀ tool ∈ tools, p.reports.Fits tool.reportName)
    (h : w.files.FilledWith p.reports.path base names) :
    (p.runInTurn deadline tools w).2.files.FilledWith p.reports.path base
      (rawNames p.changes (Outcome.turns false (p.runInTurn deadline tools w).1.outcomes tools)
        ++ names) := by
  induction tools generalizing w names with
  | nil => exact h
  | cons tool rest ih =>
    have hplain := (hf tool (.head _)).plain
    have hrest {v : World σ} {names : List String}
        (h : v.files.FilledWith p.reports.path base names) :=
      ih (w := v) (fun other hm => hf other (.tail _ hm)) h
    have hlaunch := filledWith_launch (hf tool (.head _)) h
    rcases hl : p.launch tool w with ⟨o | process, v⟩ <;> rw [hl] at hlaunch
    · rw [runInTurn_over hl, Outcome.turns_cons (isOf_launch hl).2, Directory.rawNames_cons]
      exact (hrest hlaunch).swap
    · -- The program runs, so its raw report is there, and stays there.
      obtain ⟨rfl, _⟩ := isOpen_launch hl
      have hraw := Directory.rawNames_of_runsFor (runsFor_of_running hl)
      have hkeeps := p.preservesFor_filledWith base
        (rawNames p.changes [process.tool] ++ names)
      have hq : '/' ∉ process.tool.reportName.toList ∧
          process.tool.reportName ++ Directory.rawSuffix ∈
            rawNames p.changes [process.tool] ++ names := ⟨hplain, by simp [hraw]⟩
      rcases ht : process.endBefore? deadline with _ | time
      · rw [runInTurn_late hl ht, List.map_cons, Outcome.turns_of_cut (p.isOf_cutOff _ _).2]
        exact hkeeps.close (w := { v with now := deadline.getD v.now }) hq hlaunch
      · rw [runInTurn_ended hl ht, Outcome.turns_cons (p.isOf_finish process time v).2,
          Directory.rawNames_cons]
        exact (hrest (hkeeps.finish hq time hlaunch)).swap

lemma mem_rawNames_of_launchAll {process : Process}
    (h : .running process ∈ (p.launchAll tools w).1) :
    process.tool.reportName ++ Directory.rawSuffix ∈ rawNames p.changes tools := by
  obtain ⟨index, hi⟩ := List.getElem?_of_mem h
  obtain ⟨tool, u, v, ht, _, hl, _⟩ := launchAll_getElem? hi
  obtain ⟨rfl, _⟩ := isOpen_launch hl
  exact List.mem_map_of_mem (List.mem_map_of_mem
    (List.mem_filter.mpr ⟨List.mem_of_getElem? ht, runsFor_of_running hl⟩))

lemma filledWith_runTogether {deadline : Option Nat}
    (hf : ∀ tool ∈ tools, p.reports.Fits tool.reportName)
    (h : w.files.FilledWith p.reports.path base names) :
    (p.runTogether deadline tools w).2.files.FilledWith p.reports.path base
      (rawNames p.changes tools ++ names) := by
  have hkeeps := p.preservesFor_filledWith base (rawNames p.changes tools ++ names)
  have hq {process : Process} (hm : .running process ∈ (p.launchAll tools w).1) :
      '/' ∉ process.tool.reportName.toList ∧
        process.tool.reportName ++ Directory.rawSuffix ∈ rawNames p.changes tools ++ names :=
    ⟨(hf _ (tool_of_launchAll hm)).plain,
      List.mem_append_left _ (mem_rawNames_of_launchAll hm)⟩
  have hdue : ∀ entry ∈ ending deadline (running 0 (p.launchAll tools w).1),
      '/' ∉ entry.2.2.tool.reportName.toList ∧ entry.2.2.tool.reportName ++ Directory.rawSuffix ∈
        rawNames p.changes tools ++ names :=
    fun entry hm => hq (mem_of_running (mem_of_ending hm))
  have hfinish := hkeeps.finishAll hdue (filledWith_launchAll hf h)
  rw [runTogether_eq rfl rfl]
  unfold closing
  dsimp only
  split
  · exact hfinish
  · exact hkeeps.closeAll (w := { (p.finishAll _ _).2 with now := _ })
      (fun process hm => hq (mem_lateAmong.mp hm).1) hfinish

lemma filledWith_runTools (together : Bool) (deadline : Option Nat)
    (hf : ∀ tool ∈ tools, p.reports.Fits tool.reportName)
    (h : w.files.FilledWith p.reports.path base names) :
    (p.runTools together deadline tools w).2.files.FilledWith p.reports.path base
      (rawNames p.changes
        (Outcome.turns together (p.runTools together deadline tools w).1.outcomes tools) ++ names) := by
  cases together with
  | true => exact filledWith_runTogether hf h
  | false => exact filledWith_runInTurn hf h

lemma runsFor_of_skipped {together : Bool} {deadline : Nat} {index : Nat} {o : Outcome}
    (ht : tools[index]? = some tool)
    (ho : (p.runTools together (some deadline) tools w).1.outcomes[index]? = some o)
    (hr : o.ran = false) : tool.runsFor p.changes = false := by
  have hturn : together = true ∨
      ¬Outcome.IsBehindCut (p.runTools together (some deadline) tools w).1.outcomes index := by
    cases together with
    | true => exact .inl rfl
    | false =>
      refine .inr fun hb => ?_
      have ha := isAborted_of_isBehindCut ho hb
      rw [Outcome.isAborted, beq_iff_eq] at ha
      rw [Outcome.ran, ha] at hr
      cases hr
  have hobeys := obeys_runTools ht ho hturn
  rw [Outcome.Obeys] at hobeys
  rw [Tool.runsFor]
  split at hobeys
  next hd => rw [hd]
  · cases hobeys.symm.trans hr

end Workplace

end Premerge
