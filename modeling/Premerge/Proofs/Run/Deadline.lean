import Premerge.Proofs.Job.Counting
import Premerge.Proofs.Job.Stages
import Premerge.Proofs.Run.InTurn
import Premerge.Proofs.Run.Together

namespace Premerge

open Premerge.Text.Utf8 (decode)
open Premerge.World

variable {σ : Type}

/-- A tool whose program began at some time is over before the deadline: its program ends by itself
within the limit of the tool, or has been killed there and is dead. -/
def Tool.IsOverBefore (tool : Tool) (behaviour : Behaviour) (began deadline : Nat) : Prop :=
  (∃ span, behaviour.duration = some span ∧
    (tool.timeoutSecs = 0 ∨ span ≤ tool.timeoutSecs * 1000) ∧ began + span < deadline) ∨
  (tool.timeoutSecs ≠ 0 ∧
    (∀ span, behaviour.duration = some span → tool.timeoutSecs * 1000 < span) ∧
    began + tool.timeoutSecs * 1000 + behaviour.dying < deadline)

def Tool.writtenBefore (tool : Tool) (behaviour : Behaviour) (began deadline : Nat) : String :=
  decode (behaviour.writtenBy
    (if tool.timeoutSecs = 0 then deadline - began
      else min (deadline - began) (tool.timeoutSecs * 1000)))

namespace Process

lemma span?_eq_some_iff {process : Process} {span : Nat} : process.span? = some span ↔
    (process.behaviour.duration = some span ∧
      (process.tool.timeoutSecs = 0 ∨ span ≤ process.tool.timeoutSecs * 1000)) ∨
    (process.tool.timeoutSecs ≠ 0 ∧
      (∀ other, process.behaviour.duration = some other →
        process.tool.timeoutSecs * 1000 < other) ∧
      process.tool.timeoutSecs * 1000 + process.behaviour.dying = span) := by
  unfold span? isTooLong limit?
  by_cases hlimit : process.tool.timeoutSecs = 0
  · rcases process.behaviour.duration with _ | duration <;> simp [hlimit]
  · rcases process.behaviour.duration with _ | duration
    · simp [hlimit]
    · by_cases hlt : process.tool.timeoutSecs * 1000 < duration
      · simp [hlimit, hlt]
        omega
      · simp [hlimit, hlt]
        omega

lemma endBefore?_of_span? {process : Process} {deadline span : Nat}
    (hs : process.span? = some span) (hlt : process.began + span < deadline) :
    process.endBefore? (some deadline) = some (process.began + span) := by
  rw [endBefore?_eq_some_iff, end?, hs]
  refine ⟨rfl, ?_⟩
  rintro _ ⟨⟩
  exact hlt

lemma endBefore?_isSome_iff {process : Process} {deadline : Nat} :
    (process.endBefore? (some deadline)).isSome ↔
      process.tool.IsOverBefore process.behaviour process.began deadline := by
  rw [Option.isSome_iff_exists]
  constructor
  · rintro ⟨time, ht⟩
    obtain ⟨he, hlt⟩ := endBefore?_eq_some_iff.mp ht
    have hbefore := hlt deadline rfl
    obtain ⟨span, hs, rfl⟩ := Option.map_eq_some_iff.mp he
    rcases span?_eq_some_iff.mp hs with ⟨hd, hl⟩ | ⟨hl, hd, rfl⟩
    · exact .inl ⟨span, hd, hl, hbefore⟩
    · exact .inr ⟨hl, hd, by omega⟩
  · rintro (⟨span, hd, hl, hlt⟩ | ⟨hl, hd, hlt⟩)
    · exact ⟨_, endBefore?_of_span? (span?_eq_some_iff.mpr (.inl ⟨hd, hl⟩)) hlt⟩
    · exact ⟨_, endBefore?_of_span? (span?_eq_some_iff.mpr (.inr ⟨hl, hd, rfl⟩)) (by omega)⟩

lemma endBefore?_eq_none_iff {process : Process} {deadline : Nat} :
    process.endBefore? (some deadline) = none ↔
      ¬process.tool.IsOverBefore process.behaviour process.began deadline := by
  rw [← endBefore?_isSome_iff, Option.not_isSome_iff_eq_none]

lemma writtenAt_eq (process : Process) (time : Nat) :
    process.writtenAt time = process.tool.writtenBefore process.behaviour process.began time := by
  unfold writtenAt writtenBy limit? Tool.writtenBefore
  by_cases hlimit : process.tool.timeoutSecs = 0 <;> simp [hlimit]

end Process

namespace Workplace

variable {p : Workplace} {deadline : Nat} {tools : List Tool} {w : World σ}

/-- A run in turn that the deadline divides: the first tools come out as without a deadline, and the
others are cut off. Of these, only the first had been started, and in a directory that has no report
of the others yet they have no output. -/
structure CutInTurn (p : Workplace) (deadline : Nat) (w : World σ) (before after : List Tool)
    (done cut : List Outcome) : Prop where
  unaffected : (p.runInTurn none before w).1 = ⟨done, false⟩
  kept : done <+: (p.runInTurn none (before ++ after) w).1.outcomes
  finished : ∀ o ∈ done, o.isAborted = false
  aborted : ∀ o ∈ cut, o.isAborted = true
  late (tool : Tool) (rest : List Tool) : after = tool :: rest →
    ∃ v behaviour u, (p.runInTurn none before w).2 = v ∧
      p.launch tool v = (.running ⟨tool, behaviour, v.now⟩, u) ∧
      ¬tool.IsOverBefore behaviour v.now deadline ∧
      (Separate (before ++ after) →
        cut = .aborted tool (tool.writtenBefore behaviour v.now deadline) ::
          rest.map fun other => .aborted other (p.rawOutput other w))
  unstarted (other : Tool) : p.HasNoReports w.files after → other ∈ after →
    p.rawOutput other w = ""

lemma finished_runInTurn {before : List Tool} {done : List Outcome}
    (h : (p.runInTurn none before w).1 = ⟨done, false⟩) : ∀ o ∈ done, o.isAborted = false := by
  have hd := mt (p.exceeded_runInTurn_iff none before w).mpr
  rw [h] at hd
  intro o hm
  by_contra ha
  exact hd (by simp) ⟨o, hm, by simpa using ha⟩

lemma kept_runInTurn {before after : List Tool} {done : List Outcome}
    (h : (p.runInTurn none before w).1 = ⟨done, false⟩) :
    done <+: (p.runInTurn none (before ++ after) w).1.outcomes := by
  rw [runInTurn_append (Prod.ext h rfl)]
  exact List.prefix_append _ _

lemma rawOutput_unstarted {before rest : List Tool} {done : List Outcome} {tool other : Tool}
    {v u : World σ} {process : Process} (hs : Separate (before ++ tool :: rest))
    (hb : p.runInTurn none before w = (⟨done, false⟩, v))
    (hl : p.launch tool v = (.running process, u)) (hm : other ∈ rest) (time : Nat) :
    p.rawOutput other (p.close process { u with now := time }) = p.rawOutput other w := by
  obtain ⟨former, latter, rfl⟩ := List.append_of_mem hm
  have hsplit : before ++ tool :: (former ++ other :: latter) =
    (before ++ tool :: former) ++ other :: latter := by simp
  have hplain := hs.plain
  rw [hsplit] at hs
  have hne {earlier : Tool} (he : earlier ∈ before ++ [tool]) :
      earlier.reportName ≠ other.reportName :=
    hs.reportName_ne_of_append (by simp at he ⊢; tauto)
  have ho := hplain other (by simp)
  have ht := hplain tool (by simp)
  have hbefore : (p.runInTurn none before w).2.files.locate (p.rawPath other) =
      w.files.locate (p.rawPath other) :=
    locate_runInTurn (fun earlier he => hplain earlier (by simp [he])) ho
      fun earlier he => hne (by simp [he])
  have hlaunch := (p.touches_launch tool v).1.locate_of_ne ht ho (hne (by simp)).symm
  have hclose := (p.touches_close process { u with now := time }).1
  rw [hb] at hbefore
  rw [hl] at hlaunch
  rw [(isOpen_launch hl).1] at hclose
  have hwalk := hclose.locate_of_ne ht ho (hne (by simp)).symm
  exact rawOutput_congr (hwalk.trans (hlaunch.trans hbefore))

lemma cutInTurn (p : Workplace) (deadline : Nat) (tools : List Tool) (w : World σ) :
    ∃ before after done cut, tools = before ++ after ∧
      (p.runInTurn (some deadline) tools w).1.outcomes = done ++ cut ∧
      p.CutInTurn deadline w before after done cut := by
  rcases p.runInTurn_cases (some deadline) tools w with
    ⟨hd, he⟩ | ⟨before, tool, after, done, v, process, u, rfl, hb, hl, ht, he⟩
  · rw [he] at hd
    have hr : (p.runInTurn none tools w).1 =
        ⟨(p.runInTurn none tools w).1.outcomes, false⟩ := by rw [← hd]
    refine ⟨tools, [], _, [], (List.append_nil tools).symm, (List.append_nil _).symm, ?_⟩
    rw [he]
    exact ⟨hr, kept_runInTurn hr, finished_runInTurn hr, by simp, by simp, by simp⟩
  · have hr : (p.runInTurn none before w).1 = ⟨done, false⟩ := by rw [hb]
    refine ⟨before, tool :: after, done, _, rfl, by rw [he],
      ⟨hr, kept_runInTurn hr, finished_runInTurn hr, ?_, ?_,
        fun other hn hm => rawOutput_of_not_exists (hn other hm)⟩⟩
    · intro o hm
      obtain ⟨other, _, rfl⟩ := List.mem_map.mp hm
      exact (p.isOf_cutOff other _).2
    · rintro _ _ ⟨⟩
      obtain ⟨rfl, hbegan, ho⟩ := isOpen_launch hl
      have hlate := Process.endBefore?_eq_none_iff.mp ht
      rw [hbegan] at hlate
      refine ⟨v, process.behaviour, u, by rw [hb], by rw [hl, ← hbegan], hlate, fun hs => ?_⟩
      have hfirst : _ = process.writtenAt deadline :=
        rawOutput_of_read (read_close (w := { u with now := deadline }) ho)
      have hrest : after.map (p.cutOff · (p.close process { u with now := deadline })) =
          after.map fun other => .aborted other (p.rawOutput other w) :=
        List.map_congr_left fun other hm => by rw [cutOff, rawOutput_unstarted hs hb hl hm]
      rw [List.map_cons, Option.getD_some, hrest, cutOff, hfirst, Process.writtenAt_eq, hbegan]

lemma locate_closeAll {late : List Process} {other : Tool}
    (hp : ∀ process ∈ late, '/' ∉ process.tool.reportName.toList)
    (ho : '/' ∉ other.reportName.toList)
    (hne : ∀ process ∈ late, process.tool.reportName ≠ other.reportName) :
    (p.closeAll late w).files.locate (p.rawPath other) = w.files.locate (p.rawPath other) := by
  induction late generalizing w with
  | nil => rfl
  | cons process rest ih =>
    have hc := (p.touches_close process w).1.locate_of_ne (hp _ (.head _)) ho (hne _ (.head _)).symm
    exact (ih (fun other hm => hp other (.tail _ hm)) fun other hm => hne other (.tail _ hm)).trans hc

lemma read_closeAll {late : List Process} {process : Process}
    (hd : late.Pairwise fun a b => b.tool.reportName ≠ a.tool.reportName)
    (hp : ∀ process ∈ late, '/' ∉ process.tool.reportName.toList)
    (ho : ∀ process ∈ late, p.IsOpen w.files process.tool) (hm : process ∈ late) :
    (p.closeAll late w).files.read (p.rawPath process.tool) =
      .ok (process.writtenBy w.now) := by
  induction hd generalizing w with
  | nil => cases hm
  | @cons first rest hne _ ih =>
    have hprest : ∀ process ∈ rest, '/' ∉ process.tool.reportName.toList :=
      fun other hm => hp other (.tail _ hm)
    obtain ⟨hk, hn⟩ := p.touches_close first w
    -- What the first one has written stays, since the others have reports of other names.
    rcases List.mem_cons.mp hm with rfl | hm
    · have hl := locate_closeAll (p := p) (w := p.close process w) hprest (hp _ (.head _)) hne
      exact (FileTree.read_of_locate hl).trans (read_close (ho _ (.head _)))
    · have hr := ih hprest (fun other hm => (ho other (.tail _ hm)).keeps hk.keeps) hm
      rwa [hn] at hr

lemma pairwise_lateAmong (hs : Separate tools) :
    (lateAmong (some deadline) (p.launchAll tools w).1).Pairwise
      fun a b => b.tool.reportName ≠ a.tool.reportName := by
  refine List.Pairwise.filter _ (List.pairwise_map.mpr ?_)
  refine (pairwise_running 0 _).imp_of_mem fun {a b} ha hb hne => ?_
  exact hs.reportName_ne (launched_process (mem_running_zero.mp ha)).1
    (launched_process (mem_running_zero.mp hb)).1 hne

/-- Tools that run together are cut off if they are not over at the deadline, with what they had
written; the others are as they are without a deadline. -/
structure CutTogether (p : Workplace) (deadline : Nat) (tools : List Tool) (w : World σ)
    (outcomes : List Outcome) : Prop where
  aborted_iff (index : Nat) (o : Outcome) : outcomes[index]? = some o →
    (o.isAborted = true ↔ ∃ tool behaviour, tools[index]? = some tool ∧
      (p.launchAll tools w).1[index]? = some (.running ⟨tool, behaviour, w.now⟩) ∧
      ¬tool.IsOverBefore behaviour w.now deadline)
  unaffected (index : Nat) (o : Outcome) : outcomes[index]? = some o → o.isAborted = false →
    (p.runTogether none tools w).1.outcomes[index]? = some o
  written (index : Nat) (o : Outcome) (tool : Tool) (behaviour : Behaviour) : Separate tools →
    outcomes[index]? = some o → o.isAborted = true →
    (p.launchAll tools w).1[index]? = some (.running ⟨tool, behaviour, w.now⟩) →
      o.output = tool.writtenBefore behaviour w.now deadline

lemma cutOff_together (hs : Separate tools) {index : Nat} {process : Process}
    (hl : (p.launchAll tools w).1[index]? = some (.running process))
    (ht : process.endBefore? (some deadline) = none) :
    p.rawOutput process.tool (p.runTogether (some deadline) tools w).2 =
      process.writtenAt deadline := by
  have hm : process ∈ lateAmong (some deadline) (p.launchAll tools w).1 :=
    mem_lateAmong.mpr ⟨List.mem_of_getElem? hl, ht⟩
  have hsome : (lateAmong (some deadline) (p.launchAll tools w).1).isEmpty = false :=
    List.isEmpty_eq_false_iff_exists_mem.mpr ⟨process, hm⟩
  have hlate (other : Process) (ho : other ∈ lateAmong (some deadline) (p.launchAll tools w).1) :
      other.tool ∈ tools ∧ p.IsOpen (p.launchAll tools w).2.files other.tool := by
    obtain ⟨place, hp⟩ := List.getElem?_of_mem (mem_lateAmong.mp ho).1
    exact ⟨List.mem_of_getElem? (launched_process hp).1, (launched_process hp).2.2⟩
  have hk := p.keeps_finishAll (ending (some deadline) (running 0 (p.launchAll tools w).1))
    (p.launchAll tools w).2
  rw [runTogether_eq (Prod.eta (p.launchAll tools w)).symm
    (Prod.eta (p.finishAll _ (p.launchAll tools w).2)).symm, closing, hsome,
    if_neg Bool.false_ne_true, Option.getD_some]
  exact rawOutput_of_read (read_closeAll (pairwise_lateAmong hs)
    (fun other ho => hs.plain _ (hlate other ho).1) (fun other ho => (hlate other ho).2.keeps hk) hm)

lemma cutTogether (p : Workplace) (deadline : Nat) (tools : List Tool) (w : World σ) :
    p.CutTogether deadline tools w (p.runTogether (some deadline) tools w).1.outcomes where
  aborted_iff index o ho := by
    rw [isAborted_runTogether ho]
    constructor
    · rintro ⟨⟨tool, behaviour, began⟩, hl, ht⟩
      obtain ⟨htool, rfl, _⟩ := launched_process hl
      exact ⟨tool, behaviour, htool, hl, Process.endBefore?_eq_none_iff.mp ht⟩
    · rintro ⟨tool, behaviour, _, hl, hlate⟩
      exact ⟨_, hl, Process.endBefore?_eq_none_iff.mpr hlate⟩
  unaffected index o ho ha := by
    have hlate := mt (isAborted_runTogether ho).mpr (by simp [ha])
    rw [runTogether_getElem?] at ho ⊢
    obtain ⟨launch, hl, rfl⟩ := Option.map_eq_some_iff.mp ho
    rw [hl]
    rcases launch with o | process
    · rfl
    · rcases ht : process.endBefore? (some deadline) with _ | time
      · exact (hlate ⟨process, hl, ht⟩).elim
      · simp only [ht, Process.end?_of_endBefore? ht, Option.map_some]
  written index o tool behaviour hs ho ha hl := by
    obtain ⟨_, hl', ht⟩ := (isAborted_runTogether ho).mp ha
    cases hl.symm.trans hl'
    rw [runTogether_getElem?, hl, Option.map_some, Option.some.injEq] at ho
    dsimp only at ho
    rw [← ho, ht]
    exact (cutOff_together hs hl ht).trans (Process.writtenAt_eq _ _)

lemma isOf_runTools (p : Workplace) (together : Bool) (deadline : Option Nat) (tools : List Tool)
    (w : World σ) : List.Forall₂ (fun tool o => o.IsOf tool) tools
      (p.runTools together deadline tools w).1.outcomes := by
  cases together with
  | true => exact p.isOf_runTogether deadline tools w
  | false => exact p.isOf_runInTurn deadline tools w

lemma exceeded_runTools_iff (p : Workplace) (together : Bool) (deadline : Option Nat)
    (tools : List Tool) (w : World σ) :
    (p.runTools together deadline tools w).1.deadlineExceeded = true ↔
      ∃ o ∈ (p.runTools together deadline tools w).1.outcomes, o.isAborted = true := by
  cases together with
  | true => exact p.exceeded_runTogether_iff deadline tools w
  | false => exact p.exceeded_runInTurn_iff deadline tools w

end Workplace

open Workplace

/-- What the deadline makes of the tools of a job, in either mode, and of the job's verdict. -/
theorem Job.runTools_at_deadline (c : Config) (tools : List Tool) (p : Workplace) (w : World σ) :
    ∃ r v, (Job.runTools c tools p).perform w = (.ok r, v) ∧
      List.Forall₂ (fun tool o => o.IsOf tool) tools r.outcomes ∧
      (r.deadlineExceeded = true ↔ ∃ o ∈ r.outcomes, o.isAborted = true) ∧
      (c.parallelTools = false → ∃ before after done cut, tools = before ++ after ∧
        r.outcomes = done ++ cut ∧ p.CutInTurn (w.now + c.jobTimeoutMs) w before after done cut) ∧
      (c.parallelTools = true → p.CutTogether (w.now + c.jobTimeoutMs) tools w r.outcomes) ∧
      (Verdict.causes r.outcomes (deadlineOf c r.deadlineExceeded)).filter Failure.isDeadline =
        if r.deadlineExceeded then
          [.deadline c.jobTimeoutSecs (Verdict.namesCutOff tools r.outcomes)]
        else [] := by
  have hof := p.isOf_runTools c.parallelTools (some (w.now + c.jobTimeoutMs)) tools w
  refine ⟨_, _, perform_runTools c tools p w, hof, p.exceeded_runTools_iff _ _ tools w, ?_, ?_, ?_⟩
  · intro hm
    rw [hm]
    exact p.cutInTurn _ tools w
  · intro hm
    rw [hm]
    exact p.cutTogether _ tools w
  · rw [Verdict.filter_causes, Verdict.abortedNames_eq hof, deadlineOf]
    split <;> rfl

end Premerge
