import Premerge.Proofs.World.Quiet
import Premerge.Run.Execution

namespace Premerge

open Premerge.World

variable {σ : Type}

namespace World

def HasRunTools (w v : World σ) : Prop :=
  w.ExtendsBeside (fun what => what.isOfTools = true) v

namespace HasRunTools

variable {w v u : World σ}

lemma refl (w : World σ) : w.HasRunTools w :=
  ExtendsBeside.refl _ w

lemma of_files {files : FileTree} (h : HasRunTools { w with files } v) : w.HasRunTools v :=
  ⟨h.past, h.services⟩

lemma of_now {now : Nat} (h : HasRunTools { w with now } v) : w.HasRunTools v :=
  ⟨h.past, h.services⟩

lemma trans (h : w.HasRunTools v) (h' : v.HasRunTools u) : w.HasRunTools u :=
  ExtendsBeside.trans h h'

lemma note (h : w.HasRunTools v) {what : Happening} (hw : what.isOfTools = true) :
    w.HasRunTools (v.note what) :=
  ExtendsBeside.note h hw

end HasRunTools

end World

namespace Workplace

lemma hasRunTools_startProgram (p : Workplace) (tool : Tool) (w : World σ)
    (words : List String) : w.HasRunTools (p.startProgram tool w words).2 := by
  unfold startProgram
  split
  · exact .refl w
  next program arguments =>
    split
    · exact .refl w
    next files _ =>
      have hs : World.HasRunTools { w with files } (World.start { w with files }
          ⟨program, arguments, tool.env, some p.directory⟩).2 :=
        .start _ _ rfl
      split <;> rename_i hstart <;> rw [hstart] at hs
      · exact hs.of_files
      · exact hs.of_files.note rfl

lemma hasRunTools_launch (p : Workplace) (tool : Tool) (w : World σ) :
    w.HasRunTools (p.launch tool w).2 := by
  unfold launch
  split
  · exact (HasRunTools.refl w).note rfl
  next words _ =>
    have hs := p.hasRunTools_startProgram tool w words
    split <;> rename_i hstart <;> rw [hstart] at hs
    · exact hs
    · exact hs.note rfl

lemma hasRunTools_close (p : Workplace) (process : Process) (w : World σ) :
    w.HasRunTools (p.close process w) := by
  unfold close
  split
  next files _ => exact ((HasRunTools.refl { w with files }).note rfl).of_files
  · exact (HasRunTools.refl w).note rfl

lemma hasRunTools_finish (p : Workplace) (process : Process) (time : Nat) (w : World σ) :
    w.HasRunTools (p.finish process time w).2 := by
  have hc := (p.hasRunTools_close process { w with now := time }).of_now
  unfold finish
  dsimp only
  split
  · exact hc.note rfl
  · exact hc.note rfl

lemma hasRunTools_runInTurn (p : Workplace) (deadline : Option Nat) (tools : List Tool)
    (w : World σ) : w.HasRunTools (p.runInTurn deadline tools w).2 := by
  induction tools generalizing w with
  | nil => exact .refl w
  | cons tool rest ih =>
    have hl := p.hasRunTools_launch tool w
    unfold runInTurn
    split <;> rename_i hlaunch <;> rw [hlaunch] at hl
    · exact hl.trans (ih _)
    next process v =>
      split
      next time _ => exact (hl.trans (p.hasRunTools_finish process time v)).trans (ih _)
      · exact hl.trans (p.hasRunTools_close process { v with now := deadline.getD v.now }).of_now

lemma hasRunTools_launchAll (p : Workplace) (tools : List Tool) (w : World σ) :
    w.HasRunTools (p.launchAll tools w).2 := by
  induction tools generalizing w with
  | nil => exact .refl w
  | cons tool rest ih => exact (p.hasRunTools_launch tool w).trans (ih _)

lemma hasRunTools_finishAll (p : Workplace) (ends : List (Nat × Nat × Process)) (w : World σ) :
    w.HasRunTools (p.finishAll ends w).2 := by
  induction ends generalizing w with
  | nil => exact .refl w
  | cons next rest ih => exact (p.hasRunTools_finish next.2.2 next.1 w).trans (ih _)

lemma hasRunTools_closeAll (p : Workplace) (processes : List Process) (w : World σ) :
    w.HasRunTools (p.closeAll processes w) := by
  induction processes generalizing w with
  | nil => exact .refl w
  | cons process rest ih => exact (p.hasRunTools_close process w).trans (ih _)

lemma hasRunTools_runTogether (p : Workplace) (deadline : Option Nat) (tools : List Tool)
    (w : World σ) : w.HasRunTools (p.runTogether deadline tools w).2 := by
  have hl := p.hasRunTools_launchAll tools w
  have hf (ends : List (Nat × Nat × Process)) :
      w.HasRunTools (p.finishAll ends (p.launchAll tools w).2).2 :=
    hl.trans (p.hasRunTools_finishAll ends _)
  unfold runTogether
  dsimp only
  split
  · exact hf _
  · exact (hf _).trans
      (p.hasRunTools_closeAll _ { (p.finishAll _ _).2 with now := _ }).of_now

lemma hasRunTools (p : Workplace) (together : Bool) (deadline : Option Nat) (tools : List Tool)
    (w : World σ) : w.HasRunTools (p.runTools together deadline tools w).2 := by
  unfold runTools
  split
  · exact p.hasRunTools_runTogether deadline tools w
  · exact p.hasRunTools_runInTurn deadline tools w

end Workplace

end Premerge
