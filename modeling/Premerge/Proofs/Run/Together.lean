import Mathlib.Data.List.Forall2
import Premerge.Proofs.Run.Ending
import Premerge.Proofs.Run.Files

namespace Premerge.Workplace

open Premerge.World

variable {σ : Type}

lemma mem_running {first place : Nat} {process : Process} {launches : List Launch} :
    (place, process) ∈ running first launches ↔
      ∃ index, place = first + index ∧ launches[index]? = some (.running process) := by
  induction launches generalizing first with
  | nil => simp [running]
  | cons launch rest ih =>
    rcases launch with o | started
    · rw [running, ih]
      constructor
      · rintro ⟨index, rfl, h⟩
        exact ⟨index + 1, by omega, h⟩
      · rintro ⟨_ | index, rfl, h⟩
        · cases h
        · exact ⟨index, by omega, h⟩
    · rw [running, List.mem_cons, ih]
      constructor
      · rintro (he | ⟨index, rfl, h⟩)
        · cases he
          exact ⟨0, rfl, rfl⟩
        · exact ⟨index + 1, by omega, h⟩
      · rintro ⟨_ | index, rfl, h⟩
        · cases h
          exact .inl rfl
        · exact .inr ⟨index, by omega, h⟩

lemma mem_running_zero {place : Nat} {process : Process} {launches : List Launch} :
    (place, process) ∈ running 0 launches ↔ launches[place]? = some (.running process) := by
  rw [mem_running]
  constructor
  · rintro ⟨index, rfl, h⟩
    rwa [Nat.zero_add]
  · exact fun h => ⟨place, (Nat.zero_add place).symm, h⟩

lemma pairwise_running (first : Nat) (launches : List Launch) :
    (running first launches).Pairwise fun a b => a.1 ≠ b.1 := by
  induction launches generalizing first with
  | nil => exact .nil
  | cons launch rest ih =>
    rcases launch with o | process
    · exact ih (first + 1)
    · refine .cons ?_ (ih (first + 1))
      rintro ⟨place, other⟩ hm
      obtain ⟨index, rfl, _⟩ := mem_running.mp hm
      dsimp only
      omega

lemma mem_ending {deadline : Option Nat} {processes : List (Nat × Process)} {time place : Nat}
    {process : Process} : (time, place, process) ∈ ending deadline processes ↔
      (place, process) ∈ processes ∧ process.endBefore? deadline = some time := by
  rw [ending, List.mem_mergeSort, List.mem_filterMap]
  constructor
  · rintro ⟨⟨_, _⟩, hm, he⟩
    obtain ⟨_, ht, he⟩ := Option.map_eq_some_iff.mp he
    cases he
    exact ⟨hm, ht⟩
  · rintro ⟨hm, ht⟩
    exact ⟨(place, process), hm, Option.map_eq_some_iff.mpr ⟨time, ht, rfl⟩⟩

lemma pairwise_ending (deadline : Option Nat) {processes : List (Nat × Process)}
    (h : processes.Pairwise fun a b => a.1 ≠ b.1) :
    (ending deadline processes).Pairwise fun a b => a.2.1 ≠ b.2.1 := by
  refine (List.mergeSort_perm _ _).symm.pairwise ?_ fun hne => hne.symm
  refine h.filterMap _ fun a b hne c hc d hd => ?_
  obtain ⟨_, _, rfl⟩ := Option.map_eq_some_iff.mp hc
  obtain ⟨_, _, rfl⟩ := Option.map_eq_some_iff.mp hd
  exact hne

lemma length_launchAll (p : Workplace) (tools : List Tool) (w : World σ) :
    (p.launchAll tools w).1.length = tools.length := by
  induction tools generalizing w with
  | nil => rfl
  | cons tool rest ih => exact congrArg (· + 1) (ih (p.launch tool w).2)

lemma keeps_launchAll (p : Workplace) (tools : List Tool) (w : World σ) :
    w.files.Keeps (p.launchAll tools w).2.files :=
  (p.preserves_keeps w.files).launchAll tools (.refl _)

lemma launchAll_getElem? {p : Workplace} {tools : List Tool} {w : World σ} {index : Nat}
    {launch : Launch} (h : (p.launchAll tools w).1[index]? = some launch) :
    ∃ tool, ∃ u v : World σ, tools[index]? = some tool ∧ u.now = w.now ∧
      p.launch tool u = (launch, v) ∧ v.files.Keeps (p.launchAll tools w).2.files := by
  induction tools generalizing w index with
  | nil => cases h
  | cons tool rest ih =>
    cases index with
    | zero =>
      cases h
      exact ⟨tool, w, (p.launch tool w).2, rfl, rfl, rfl, p.keeps_launchAll rest _⟩
    | succ index =>
      obtain ⟨other, u, v, ht, hn, hl, hk⟩ := ih h
      exact ⟨other, u, v, ht, hn.trans (p.touches_launch tool w).2, hl, hk⟩

lemma launched_process {p : Workplace} {tools : List Tool} {w : World σ} {index : Nat}
    {process : Process} (h : (p.launchAll tools w).1[index]? = some (.running process)) :
    tools[index]? = some process.tool ∧ process.began = w.now ∧
      p.IsOpen (p.launchAll tools w).2.files process.tool := by
  obtain ⟨tool, u, v, ht, hn, hl, hk⟩ := launchAll_getElem? h
  obtain ⟨rfl, hb, ho⟩ := isOpen_launch hl
  exact ⟨ht, hb.trans hn, ho.keeps hk⟩

lemma finishAll_cons (p : Workplace) (time place : Nat) (process : Process)
    (rest : List (Nat × Nat × Process)) (w : World σ) :
    p.finishAll ((time, place, process) :: rest) w =
      ((place, (p.finish process time w).1) :: (p.finishAll rest (p.finish process time w).2).1,
        (p.finishAll rest (p.finish process time w).2).2) := rfl

lemma keys_finishAll (p : Workplace) (due : List (Nat × Nat × Process)) (w : World σ) :
    (p.finishAll due w).1.map Prod.fst = due.map fun entry => entry.2.1 := by
  induction due generalizing w with
  | nil => rfl
  | cons entry rest ih =>
    obtain ⟨time, place, process⟩ := entry
    rw [finishAll_cons, List.map_cons, List.map_cons, ih]

lemma lookup_finishAll_isSome {p : Workplace} {due : List (Nat × Nat × Process)} {w : World σ}
    {place : Nat} :
    ((p.finishAll due w).1.lookup place).isSome ↔ ∃ entry ∈ due, entry.2.1 = place := by
  rw [List.lookup_isSome_iff]
  constructor
  · rintro ⟨entry, hm, he⟩
    have hk := List.mem_map_of_mem (f := Prod.fst) hm
    rw [keys_finishAll] at hk
    obtain ⟨ended, hd, hp⟩ := List.mem_map.mp hk
    exact ⟨ended, hd, hp.trans (beq_iff_eq.mp he).symm⟩
  · rintro ⟨ended, hd, rfl⟩
    have hk := List.mem_map_of_mem (f := fun entry => entry.2.1) hd
    rw [← keys_finishAll p due w] at hk
    obtain ⟨entry, hm, he⟩ := List.mem_map.mp hk
    exact ⟨entry, hm, beq_iff_eq.mpr he.symm⟩

lemma lookup_ending_isSome (p : Workplace) (deadline : Option Nat) (launches : List Launch)
    (w : World σ) (place : Nat) :
    ((p.finishAll (ending deadline (running 0 launches)) w).1.lookup place).isSome ↔
      ∃ process time, launches[place]? = some (.running process) ∧
        process.endBefore? deadline = some time := by
  rw [lookup_finishAll_isSome]
  constructor
  · rintro ⟨⟨time, _, process⟩, hm, rfl⟩
    obtain ⟨hr, ht⟩ := mem_ending.mp hm
    exact ⟨process, time, mem_running_zero.mp hr, ht⟩
  · rintro ⟨process, time, hr, ht⟩
    exact ⟨(time, place, process), mem_ending.mpr ⟨mem_running_zero.mpr hr, ht⟩, rfl⟩

lemma keeps_finishAll (p : Workplace) (due : List (Nat × Nat × Process)) (w : World σ) :
    w.files.Keeps (p.finishAll due w).2.files :=
  (p.preserves_keeps w.files).finishAll due (.refl _)

lemma finishAll_outcomes {p : Workplace} {due : List (Nat × Nat × Process)} {w : World σ}
    (h : ∀ entry ∈ due, p.IsOpen w.files entry.2.2.tool) :
    (p.finishAll due w).1 = due.map fun entry => (entry.2.1, entry.2.2.outcome entry.1) := by
  induction due generalizing w with
  | nil => rfl
  | cons entry rest ih =>
    obtain ⟨time, place, process⟩ := entry
    have hk := (p.touches_finish process time w).1.keeps
    rw [finishAll_cons, List.map_cons, ih fun other hm => (h other (.tail _ hm)).keeps hk,
      finish_outcome time (h (time, place, process) (.head _))]

lemma length_collect (p : Workplace) (finished : List (Nat × Outcome)) (w : World σ)
    (first : Nat) (launches : List Launch) :
    (p.collect finished w first launches).length = launches.length := by
  induction launches generalizing first with
  | nil => rfl
  | cons launch rest ih => cases launch <;> simp [collect, ih]

lemma collect_getElem? (p : Workplace) (finished : List (Nat × Outcome)) (w : World σ)
    (first index : Nat) (launches : List Launch) :
    (p.collect finished w first launches)[index]? = launches[index]?.map fun launch =>
      match launch with
      | .over o => o
      | .running process =>
        (finished.lookup (first + index)).getD (p.cutOff process.tool w) := by
  induction launches generalizing first index with
  | nil => simp [collect]
  | cons launch rest ih =>
    cases index with
    | zero => cases launch <;> simp [collect]
    | succ index =>
      have he : first + 1 + index = first + (index + 1) := by omega
      cases launch <;> simp [collect, ih, he]

def lateAmong (deadline : Option Nat) (launches : List Launch) : List Process :=
  ((running 0 launches).map Prod.snd).filter fun process => (process.endBefore? deadline).isNone

lemma mem_lateAmong {deadline : Option Nat} {launches : List Launch} {process : Process} :
    process ∈ lateAmong deadline launches ↔
      .running process ∈ launches ∧ process.endBefore? deadline = none := by
  rw [lateAmong, List.mem_filter, List.mem_map, Option.isNone_iff_eq_none]
  refine and_congr_left fun _ => ⟨?_, fun hm => ?_⟩
  · rintro ⟨⟨place, _⟩, hm, rfl⟩
    exact List.mem_of_getElem? (mem_running_zero.mp hm)
  · obtain ⟨place, hl⟩ := List.getElem?_of_mem hm
    exact ⟨(place, process), mem_running_zero.mpr hl, rfl⟩

def closing (p : Workplace) (deadline : Option Nat) (late : List Process) (w : World σ) : World σ :=
  if late.isEmpty then w else p.closeAll late { w with now := deadline.getD w.now }

lemma runTogether_eq {p : Workplace} {deadline : Option Nat} {tools : List Tool} {w u v : World σ}
    {launches : List Launch} {finished : List (Nat × Outcome)}
    (hl : p.launchAll tools w = (launches, u))
    (hf : p.finishAll (ending deadline (running 0 launches)) u = (finished, v)) :
    p.runTogether deadline tools w =
      (⟨p.collect finished (p.closing deadline (lateAmong deadline launches) v) 0 launches,
        !(lateAmong deadline launches).isEmpty⟩,
        p.closing deadline (lateAmong deadline launches) v) := by
  unfold runTogether
  simp only [hl, hf]
  rfl

lemma runTogether_getElem? (p : Workplace) (deadline : Option Nat) (tools : List Tool)
    (w : World σ) (index : Nat) :
    (p.runTogether deadline tools w).1.outcomes[index]? =
      (p.launchAll tools w).1[index]?.map fun launch =>
        match launch with
        | .over o => o
        | .running process =>
          match process.endBefore? deadline with
          | some time => process.outcome time
          | none => p.cutOff process.tool (p.runTogether deadline tools w).2 := by
  have he : p.runTogether deadline tools w = _ := runTogether_eq
    (Prod.eta (p.launchAll tools w)).symm (Prod.eta (p.finishAll _ (p.launchAll tools w).2)).symm
  have hopen : ∀ entry ∈ ending deadline (running 0 (p.launchAll tools w).1),
      p.IsOpen (p.launchAll tools w).2.files entry.2.2.tool := fun entry hm =>
    (launched_process (mem_running_zero.mp (mem_ending.mp hm).1)).2.2
  have hkey := lookup_ending_isSome p deadline (p.launchAll tools w).1 (p.launchAll tools w).2 index
  rw [finishAll_outcomes hopen] at he hkey
  rw [he, collect_getElem?, Nat.zero_add]
  rcases hl : (p.launchAll tools w).1[index]? with _ | ⟨o | process⟩
  · rfl
  · rfl
  · rw [Option.map_some, Option.map_some]
    dsimp only
    rcases ht : process.endBefore? deadline with _ | time
    · have hnone := mt hkey.mp (by simp [hl, ht])
      rw [Option.not_isSome_iff_eq_none.mp hnone]
      rfl
    · have hm := mem_ending.mpr ⟨mem_running_zero.mpr hl, ht⟩
      have hf := List.mem_map_of_mem (f := fun entry => (entry.2.1, entry.2.2.outcome entry.1)) hm
      have hp : ((ending deadline (running 0 (p.launchAll tools w).1)).map fun entry =>
          (entry.2.1, entry.2.2.outcome entry.1)).Pairwise fun a b => a.1 ≠ b.1 :=
        (pairwise_ending deadline (pairwise_running 0 _)).map _ fun _ _ h => h
      rw [Data.lookup_of_mem hp hf]
      rfl

lemma isAborted_runTogether {p : Workplace} {deadline : Option Nat} {tools : List Tool}
    {w : World σ} {index : Nat} {o : Outcome}
    (h : (p.runTogether deadline tools w).1.outcomes[index]? = some o) :
    o.isAborted = true ↔ ∃ process, (p.launchAll tools w).1[index]? = some (.running process) ∧
      process.endBefore? deadline = none := by
  rw [runTogether_getElem?] at h
  obtain ⟨launch, hl, rfl⟩ := Option.map_eq_some_iff.mp h
  rw [hl]
  obtain ⟨tool, u, v, _, _, hlaunch, _⟩ := launchAll_getElem? hl
  rcases launch with o | process
  · simp [(isOf_launch hlaunch).2]
  · rcases ht : process.endBefore? deadline with _ | time
    · simp [ht, isOf_cutOff]
    · simp [ht, Process.isAborted_outcome]

lemma exceeded_runTogether_iff (p : Workplace) (deadline : Option Nat) (tools : List Tool)
    (w : World σ) : (p.runTogether deadline tools w).1.deadlineExceeded = true ↔
      ∃ o ∈ (p.runTogether deadline tools w).1.outcomes, o.isAborted = true := by
  have he : p.runTogether deadline tools w = _ := runTogether_eq
    (Prod.eta (p.launchAll tools w)).symm (Prod.eta (p.finishAll _ (p.launchAll tools w).2)).symm
  have hd : (p.runTogether deadline tools w).1.deadlineExceeded = true ↔
      ∃ process, process ∈ lateAmong deadline (p.launchAll tools w).1 := by
    rw [he, Bool.not_eq_true']
    exact List.isEmpty_eq_false_iff_exists_mem
  rw [hd]
  constructor
  · rintro ⟨process, hm⟩
    obtain ⟨hl, ht⟩ := mem_lateAmong.mp hm
    obtain ⟨index, hl⟩ := List.getElem?_of_mem hl
    have ho := p.runTogether_getElem? deadline tools w index
    rw [hl, Option.map_some] at ho
    exact ⟨_, List.mem_of_getElem? ho, (isAborted_runTogether ho).mpr ⟨process, hl, ht⟩⟩
  · rintro ⟨o, hm, ha⟩
    obtain ⟨index, ho⟩ := List.getElem?_of_mem hm
    obtain ⟨process, hl, ht⟩ := (isAborted_runTogether ho).mp ha
    exact ⟨process, mem_lateAmong.mpr ⟨List.mem_of_getElem? hl, ht⟩⟩

lemma isOf_runTogether (p : Workplace) (deadline : Option Nat) (tools : List Tool)
    (w : World σ) :
    List.Forall₂ (fun tool o => o.IsOf tool) tools (p.runTogether deadline tools w).1.outcomes := by
  have hlen : (p.runTogether deadline tools w).1.outcomes.length = tools.length := by
    rw [runTogether_eq (Prod.eta (p.launchAll tools w)).symm
      (Prod.eta (p.finishAll _ (p.launchAll tools w).2)).symm]
    exact (p.length_collect _ _ _ _).trans (p.length_launchAll tools w)
  refine List.forall₂_iff_get.mpr ⟨hlen.symm, fun index ht ho => ?_⟩
  have hg := p.runTogether_getElem? deadline tools w index
  rw [List.getElem?_eq_getElem ho, eq_comm, Option.map_eq_some_iff] at hg
  obtain ⟨launch, hl, he⟩ := hg
  obtain ⟨tool, u, v, htool, _, hlaunch, _⟩ := launchAll_getElem? hl
  rw [List.getElem?_eq_getElem ht, Option.some.injEq] at htool
  subst htool
  rw [List.get_eq_getElem, List.get_eq_getElem, ← he]
  rcases launch with o | process
  · exact (isOf_launch hlaunch).1
  · rw [← (isOpen_launch hlaunch).1]
    dsimp only
    rcases process.endBefore? deadline with _ | time
    · exact (p.isOf_cutOff process.tool _).1
    · exact ⟨rfl, rfl, rfl, rfl⟩

end Premerge.Workplace
