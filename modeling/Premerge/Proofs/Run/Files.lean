import Premerge.Proofs.Run.Touches

namespace Premerge.Workplace

open Premerge.World

variable {σ : Type} {p : Workplace} {Q : Tool → Prop} {P : FileTree → Prop}

def PreservesFor (p : Workplace) (Q : Tool → Prop) (P : FileTree → Prop) : Prop :=
  ∀ tree after tool content, Q tool → P tree → tree.write (p.rawPath tool) content = .ok after →
    P after

lemma tool_of_launch {tool : Tool} {w v : World σ} {process : Process}
    (h : p.launch tool w = (.running process, v)) : process.tool = tool := by
  obtain ⟨_, _, _, _, _, _, he, _⟩ := launch_running h
  rw [he]

lemma tool_of_launchAll {tools : List Tool} {w : World σ} {process : Process}
    (h : .running process ∈ (p.launchAll tools w).1) : process.tool ∈ tools := by
  induction tools generalizing w with
  | nil => cases h
  | cons tool rest ih =>
    rcases List.mem_cons.mp h with he | hm
    · have hl : (p.launch tool w).1 = .running process := he.symm
      exact tool_of_launch (Prod.ext hl rfl) ▸ .head _
    · exact .tail _ (ih hm)

lemma mem_of_running {first : Nat} {launches : List Launch} {process : Process}
    (h : process ∈ (running first launches).map Prod.snd) : .running process ∈ launches := by
  induction launches generalizing first with
  | nil => cases h
  | cons launch rest ih =>
    rcases launch with o | started
    · exact .tail _ (ih h)
    · rcases List.mem_cons.mp h with rfl | hm
      · exact .head _
      · exact .tail _ (ih hm)

lemma mem_of_ending {deadline : Option Nat} {processes : List (Nat × Process)}
    {entry : Nat × Nat × Process} (h : entry ∈ ending deadline processes) :
    entry.2.2 ∈ processes.map Prod.snd := by
  rw [ending, List.mem_mergeSort, List.mem_filterMap] at h
  obtain ⟨⟨place, process⟩, hm, he⟩ := h
  obtain ⟨time, _, rfl⟩ := Option.map_eq_some_iff.mp he
  exact List.mem_map_of_mem (f := Prod.snd) hm

namespace PreservesFor

lemma touches (hP : p.PreservesFor Q P) {tool : Tool} (hQ : Q tool) {w v : World σ}
    (ht : p.Touches tool w v) (h : P w.files) : P v.files := by
  rcases ht.files with hf | ⟨content, hf⟩
  · rwa [hf]
  · exact hP _ _ tool content hQ h hf

lemma launch (hP : p.PreservesFor Q P) {tool : Tool} (hQ : Q tool) {w : World σ}
    (h : P w.files) : P (p.launch tool w).2.files :=
  hP.touches hQ (p.touches_launch tool w).1 h

lemma close (hP : p.PreservesFor Q P) {process : Process} (hQ : Q process.tool) {w : World σ}
    (h : P w.files) : P (p.close process w).files :=
  hP.touches hQ (p.touches_close process w).1 h

lemma finish (hP : p.PreservesFor Q P) {process : Process} (hQ : Q process.tool) (time : Nat)
    {w : World σ} (h : P w.files) : P (p.finish process time w).2.files :=
  hP.touches hQ (p.touches_finish process time w).1 h

lemma runInTurn (hP : p.PreservesFor Q P) (deadline : Option Nat) {tools : List Tool}
    (hQ : ∀ tool ∈ tools, Q tool) {w : World σ} (h : P w.files) :
    P (p.runInTurn deadline tools w).2.files := by
  induction tools generalizing w with
  | nil => exact h
  | cons tool rest ih =>
    have hrest : ∀ other ∈ rest, Q other := fun other hm => hQ other (.tail _ hm)
    have hl := hP.launch (hQ tool (.head _)) h
    unfold Workplace.runInTurn
    split <;> rename_i hlaunch <;> rw [hlaunch] at hl
    · exact ih hrest hl
    next process v =>
      have hp : Q process.tool := tool_of_launch hlaunch ▸ hQ tool (.head _)
      split
      next time _ => exact ih hrest (hP.finish hp time hl)
      · exact hP.close (w := { v with now := deadline.getD v.now }) hp hl

lemma launchAll (hP : p.PreservesFor Q P) {tools : List Tool} (hQ : ∀ tool ∈ tools, Q tool)
    {w : World σ} (h : P w.files) : P (p.launchAll tools w).2.files := by
  induction tools generalizing w with
  | nil => exact h
  | cons tool rest ih =>
    exact ih (fun other hm => hQ other (.tail _ hm)) (hP.launch (hQ tool (.head _)) h)

lemma finishAll (hP : p.PreservesFor Q P) {due : List (Nat × Nat × Process)}
    (hQ : ∀ entry ∈ due, Q entry.2.2.tool) {w : World σ} (h : P w.files) :
    P (p.finishAll due w).2.files := by
  induction due generalizing w with
  | nil => exact h
  | cons entry rest ih =>
    exact ih (fun other hm => hQ other (.tail _ hm)) (hP.finish (hQ entry (.head _)) entry.1 h)

lemma closeAll (hP : p.PreservesFor Q P) {processes : List Process}
    (hQ : ∀ process ∈ processes, Q process.tool) {w : World σ} (h : P w.files) :
    P (p.closeAll processes w).files := by
  induction processes generalizing w with
  | nil => exact h
  | cons process rest ih =>
    exact ih (fun other hm => hQ other (.tail _ hm)) (hP.close (hQ process (.head _)) h)

lemma runTogether (hP : p.PreservesFor Q P) (deadline : Option Nat) {tools : List Tool}
    (hQ : ∀ tool ∈ tools, Q tool) {w : World σ} (h : P w.files) :
    P (p.runTogether deadline tools w).2.files := by
  have hprocess : ∀ process ∈ (running 0 (p.launchAll tools w).1).map Prod.snd, Q process.tool :=
    fun process hm => hQ _ (tool_of_launchAll (mem_of_running hm))
  have hdue : ∀ entry ∈ ending deadline (running 0 (p.launchAll tools w).1), Q entry.2.2.tool :=
    fun entry hm => hprocess _ (mem_of_ending hm)
  have hfinish := hP.finishAll hdue (hP.launchAll hQ h)
  unfold Workplace.runTogether
  dsimp only
  split
  · exact hfinish
  · exact hP.closeAll (w := { (p.finishAll _ _).2 with now := _ })
      (fun process hm => hprocess process (List.mem_filter.mp hm).1) hfinish

lemma runTools (hP : p.PreservesFor Q P) (together : Bool) (deadline : Option Nat)
    {tools : List Tool} (hQ : ∀ tool ∈ tools, Q tool) {w : World σ} (h : P w.files) :
    P (p.runTools together deadline tools w).2.files := by
  cases together with
  | true => exact hP.runTogether deadline hQ h
  | false => exact hP.runInTurn deadline hQ h

end PreservesFor

def Preserves (p : Workplace) (P : FileTree → Prop) : Prop :=
  ∀ tree after tool content, P tree → tree.write (p.rawPath tool) content = .ok after → P after

lemma preserves_keeps (p : Workplace) (first : FileTree) : p.Preserves first.Keeps :=
  fun _ _ _ _ h hw => h.trans (FileTree.keeps_of_write hw)

namespace Preserves

lemma forAll (hP : p.Preserves P) : p.PreservesFor (fun _ => True) P :=
  fun tree after tool content _ => hP tree after tool content

lemma launchAll (hP : p.Preserves P) (tools : List Tool) {w : World σ} (h : P w.files) :
    P (p.launchAll tools w).2.files :=
  hP.forAll.launchAll (fun _ _ => trivial) h

lemma finishAll (hP : p.Preserves P) (due : List (Nat × Nat × Process)) {w : World σ}
    (h : P w.files) : P (p.finishAll due w).2.files :=
  hP.forAll.finishAll (fun _ _ => trivial) h

lemma runTools (hP : p.Preserves P) (together : Bool) (deadline : Option Nat) (tools : List Tool)
    {w : World σ} (h : P w.files) : P (p.runTools together deadline tools w).2.files :=
  hP.forAll.runTools together deadline (fun _ _ => trivial) h

end Preserves

end Premerge.Workplace
