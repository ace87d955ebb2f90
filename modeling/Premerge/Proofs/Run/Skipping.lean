import Premerge.Proofs.Run.Deadline

namespace Premerge

open Premerge.Change (ChangeSet)
open Premerge.World

variable {σ : Type}

namespace Outcome

/-- The outcome is a skip, for the reason that the tool is not to run for the change, or the tool is
to run and the outcome is none. -/
def Obeys (o : Outcome) (tool : Tool) (changes : ChangeSet) : Prop :=
  match tool.dispatch changes with
  | .skip reason => o = .skipped tool reason
  | .run _ => o.ran = true

lemma obeys_of_run {o : Outcome} {tool : Tool} {changes : ChangeSet} {words : List String}
    (hd : tool.dispatch changes = .run words) (hr : o.ran = true) : o.Obeys tool changes := by
  rw [Obeys, hd]
  exact hr

lemma Obeys.not_isAborted {o : Outcome} {tool : Tool} {changes : ChangeSet} {reason : String}
    (h : o.Obeys tool changes) (hd : tool.dispatch changes = .skip reason) :
    o.isAborted = false := by
  rw [Obeys, hd] at h
  rw [h]
  rfl

def IsBehindCut (outcomes : List Outcome) (index : Nat) : Prop :=
  ∃ earlier other, earlier < index ∧ outcomes[earlier]? = some other ∧ other.isAborted = true

end Outcome

open Outcome (IsBehindCut)

lemma Process.ran_outcome (process : Process) (time : Nat) :
    (process.outcome time).ran = true := by
  unfold outcome status
  split <;> rfl

namespace Workplace

variable {p : Workplace} {tool : Tool} {w v : World σ}

lemma ran_finish (p : Workplace) (process : Process) (time : Nat) (w : World σ) :
    (p.finish process time w).1.ran = true := by
  unfold finish
  dsimp only
  split <;> rfl

lemma obeys_launch {o : Outcome} (h : p.launch tool w = (.over o, v)) :
    o.Obeys tool p.changes := by
  rcases p.launch_cases tool w with
    ⟨reason, hd, hl⟩ | ⟨words, e, u, hd, _, hl⟩ | ⟨words, behaviour, u, _, _, hl⟩
  · cases hl ▸ h
    rw [Outcome.Obeys, hd]
  · cases hl ▸ h
    exact Outcome.obeys_of_run hd rfl
  · cases hl ▸ h

lemma obeys_of_running {o : Outcome} {process : Process}
    (h : p.launch tool w = (.running process, v)) (hr : o.ran = true) : o.Obeys tool p.changes := by
  obtain ⟨_, _, _, hd, _⟩ := launch_running h
  exact Outcome.obeys_of_run hd hr

lemma obeys_runTogether (p : Workplace) (deadline : Option Nat) (tools : List Tool) (w : World σ)
    {index : Nat} {o : Outcome} (ht : tools[index]? = some tool)
    (ho : (p.runTogether deadline tools w).1.outcomes[index]? = some o) :
    o.Obeys tool p.changes := by
  rw [runTogether_getElem?] at ho
  obtain ⟨launch, hl, rfl⟩ := Option.map_eq_some_iff.mp ho
  obtain ⟨other, u, v, hother, _, hlaunch, _⟩ := launchAll_getElem? hl
  obtain rfl : other = tool := Option.some.inj (hother.symm.trans ht)
  rcases launch with o | process
  · exact obeys_launch hlaunch
  · refine obeys_of_running hlaunch ?_
    dsimp only
    rcases process.endBefore? deadline with _ | time
    · rfl
    · exact process.ran_outcome time

lemma obeys_runInTurn {deadline : Option Nat} {tools : List Tool} {w : World σ}
    (h : (p.runInTurn deadline tools w).1.deadlineExceeded = false) :
    List.Forall₂ (fun tool o => o.Obeys tool p.changes) tools
      (p.runInTurn deadline tools w).1.outcomes := by
  induction tools generalizing w with
  | nil => exact .nil
  | cons tool rest ih =>
    rcases hl : p.launch tool w with ⟨o | process, v⟩
    · rw [runInTurn_over hl] at h ⊢
      exact .cons (obeys_launch hl) (ih h)
    · rcases ht : process.endBefore? deadline with _ | time
      · rw [runInTurn_late hl ht] at h
        cases h
      · rw [runInTurn_ended hl ht] at h ⊢
        exact .cons (obeys_of_running hl (p.ran_finish process time v)) (ih h)

namespace CutInTurn

variable {deadline index : Nat} {before after : List Tool} {done cut : List Outcome} {o : Outcome}

lemma obeys (h : p.CutInTurn deadline w before after done cut) :
    List.Forall₂ (fun tool o => o.Obeys tool p.changes) before done := by
  have ho := obeys_runInTurn (congrArg Results.deadlineExceeded h.unaffected)
  rwa [h.unaffected] at ho

lemma obeys_first (h : p.CutInTurn deadline w before after done cut)
    (ht : (before ++ after)[done.length]? = some tool) (hr : o.ran = true) :
    o.Obeys tool p.changes := by
  rw [← h.obeys.length_eq, List.getElem?_append_right (Nat.le_refl _), Nat.sub_self] at ht
  cases after with
  | nil => cases ht
  | cons first rest =>
    cases ht
    obtain ⟨_, _, _, _, hl, _⟩ := h.late tool rest rfl
    exact obeys_of_running hl hr

lemma isAborted_of_le (h : p.CutInTurn deadline w before after done cut)
    (ho : (done ++ cut)[index]? = some o) (hle : done.length ≤ index) : o.isAborted = true := by
  rw [List.getElem?_append_right hle] at ho
  exact h.aborted o (List.mem_of_getElem? ho)

lemma isBehindCut_iff (h : p.CutInTurn deadline w before after done cut)
    (hi : index < (done ++ cut).length) :
    IsBehindCut (done ++ cut) index ↔ done.length < index := by
  constructor
  · rintro ⟨earlier, other, hlt, ho, ha⟩
    by_contra hn
    rw [List.getElem?_append_left (by omega)] at ho
    rw [h.finished other (List.mem_of_getElem? ho)] at ha
    cases ha
  · intro hlt
    have hd : done.length < (done ++ cut).length := by omega
    have ho := List.getElem?_eq_getElem hd
    exact ⟨_, _, hlt, ho, h.isAborted_of_le ho (Nat.le_refl _)⟩

end CutInTurn

lemma isAborted_of_isBehindCut {deadline : Nat} {tools : List Tool} {index : Nat} {o : Outcome}
    (ho : (p.runInTurn (some deadline) tools w).1.outcomes[index]? = some o)
    (hb : IsBehindCut (p.runInTurn (some deadline) tools w).1.outcomes index) :
    o.isAborted = true := by
  obtain ⟨before, after, done, cut, rfl, hout, hc⟩ := p.cutInTurn deadline tools w
  rw [hout] at ho hb
  have hlt := (hc.isBehindCut_iff (List.getElem?_eq_some_iff.mp ho).1).mp hb
  exact hc.isAborted_of_le ho (Nat.le_of_lt hlt)

lemma obeys_of_not_isBehindCut {deadline : Nat} {tools : List Tool} {index : Nat} {o : Outcome}
    (ht : tools[index]? = some tool)
    (ho : (p.runInTurn (some deadline) tools w).1.outcomes[index]? = some o)
    (hb : ¬IsBehindCut (p.runInTurn (some deadline) tools w).1.outcomes index) :
    o.Obeys tool p.changes := by
  obtain ⟨before, after, done, cut, rfl, hout, hc⟩ := p.cutInTurn deadline tools w
  rw [hout] at ho hb
  rw [hc.isBehindCut_iff (List.getElem?_eq_some_iff.mp ho).1] at hb
  -- Before the first tool that was cut off everything is as without a deadline, and that one had
  -- been started.
  rcases Nat.lt_or_eq_of_le (Nat.not_lt.mp hb) with hlt | rfl
  · have hlen := hc.obeys.length_eq
    rw [List.getElem?_append_left hlt] at ho
    rw [List.getElem?_append_left (by omega)] at ht
    obtain ⟨_, rfl⟩ := List.getElem?_eq_some_iff.mp ht
    obtain ⟨_, rfl⟩ := List.getElem?_eq_some_iff.mp ho
    exact hc.obeys.get _ _
  · have ha := hc.isAborted_of_le ho (Nat.le_refl _)
    refine hc.obeys_first ht ?_
    rw [Outcome.isAborted, beq_iff_eq] at ha
    rw [Outcome.ran, ha]

lemma obeys_runTools {together : Bool} {deadline : Nat} {tools : List Tool} {index : Nat}
    {o : Outcome} (ht : tools[index]? = some tool)
    (ho : (p.runTools together (some deadline) tools w).1.outcomes[index]? = some o)
    (hb : together = true ∨
      ¬IsBehindCut (p.runTools together (some deadline) tools w).1.outcomes index) :
    o.Obeys tool p.changes := by
  cases together with
  | true => exact p.obeys_runTogether (some deadline) tools w ht ho
  | false => exact obeys_of_not_isBehindCut ht ho (hb.resolve_left Bool.false_ne_true)

end Workplace

end Premerge
