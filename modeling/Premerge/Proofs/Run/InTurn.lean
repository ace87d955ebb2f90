import Mathlib.Data.List.Forall2
import Premerge.Proofs.Run.Ending

namespace Premerge.Workplace

open Premerge.World

variable {σ : Type} {p : Workplace} {deadline : Option Nat} {tool : Tool} {rest : List Tool}
  {w v : World σ} {process : Process}

lemma runInTurn_over {o : Outcome} (h : p.launch tool w = (.over o, v)) :
    p.runInTurn deadline (tool :: rest) w =
      (⟨o :: (p.runInTurn deadline rest v).1.outcomes,
        (p.runInTurn deadline rest v).1.deadlineExceeded⟩, (p.runInTurn deadline rest v).2) := by
  rw [runInTurn, h]

lemma runInTurn_ended {time : Nat} (h : p.launch tool w = (.running process, v))
    (ht : process.endBefore? deadline = some time) :
    p.runInTurn deadline (tool :: rest) w =
      (⟨(p.finish process time v).1
          :: (p.runInTurn deadline rest (p.finish process time v).2).1.outcomes,
        (p.runInTurn deadline rest (p.finish process time v).2).1.deadlineExceeded⟩,
        (p.runInTurn deadline rest (p.finish process time v).2).2) := by
  simp only [runInTurn, h, ht]

lemma runInTurn_late (h : p.launch tool w = (.running process, v))
    (ht : process.endBefore? deadline = none) :
    p.runInTurn deadline (tool :: rest) w =
      (⟨(tool :: rest).map
          (p.cutOff · (p.close process { v with now := deadline.getD v.now })), true⟩,
        p.close process { v with now := deadline.getD v.now }) := by
  simp only [runInTurn, h, ht]

lemma isOf_runInTurn (p : Workplace) (deadline : Option Nat) (tools : List Tool) (w : World σ) :
    List.Forall₂ (fun tool o => o.IsOf tool) tools (p.runInTurn deadline tools w).1.outcomes := by
  induction tools generalizing w with
  | nil => exact .nil
  | cons tool rest ih =>
    rcases hl : p.launch tool w with ⟨o | process, v⟩
    · rw [runInTurn_over hl]
      exact .cons (isOf_launch hl).1 (ih v)
    · obtain ⟨rfl, _, _⟩ := isOpen_launch hl
      rcases ht : process.endBefore? deadline with _ | time
      · rw [runInTurn_late hl ht, List.forall₂_map_right_iff, List.forall₂_same]
        exact fun tool _ => (p.isOf_cutOff tool _).1
      · rw [runInTurn_ended hl ht]
        exact .cons (p.isOf_finish process time v).1 (ih _)

lemma exceeded_runInTurn_iff (p : Workplace) (deadline : Option Nat) (tools : List Tool)
    (w : World σ) : (p.runInTurn deadline tools w).1.deadlineExceeded = true ↔
      ∃ o ∈ (p.runInTurn deadline tools w).1.outcomes, o.isAborted = true := by
  induction tools generalizing w with
  | nil => simp [runInTurn]
  | cons tool rest ih =>
    rcases hl : p.launch tool w with ⟨o | process, v⟩
    · rw [runInTurn_over hl]
      simp only [List.mem_cons, exists_eq_or_imp, (isOf_launch hl).2, ih, Bool.false_eq_true,
        false_or]
    · rcases ht : process.endBefore? deadline with _ | time
      · rw [runInTurn_late hl ht]
        exact iff_of_true rfl ⟨_, .head _, (p.isOf_cutOff tool _).2⟩
      · rw [runInTurn_ended hl ht]
        simp only [List.mem_cons, exists_eq_or_imp, (p.isOf_finish process time v).2, ih,
          Bool.false_eq_true, false_or]

lemma runInTurn_append {before after : List Tool} {done : List Outcome}
    (h : p.runInTurn deadline before w = (⟨done, false⟩, v)) :
    p.runInTurn deadline (before ++ after) w =
      (⟨done ++ (p.runInTurn deadline after v).1.outcomes,
        (p.runInTurn deadline after v).1.deadlineExceeded⟩,
        (p.runInTurn deadline after v).2) := by
  induction before generalizing w done with
  | nil =>
    cases h
    rfl
  | cons tool rest ih =>
    rw [List.cons_append]
    rcases hl : p.launch tool w with ⟨o | process, u⟩
    · rw [runInTurn_over hl] at h ⊢
      rcases hr : p.runInTurn deadline rest u with ⟨⟨outcomes, exceeded⟩, x⟩
      rw [hr] at h
      cases h
      rw [ih hr]
      rfl
    · rcases ht : process.endBefore? deadline with _ | time
      · rw [runInTurn_late hl ht] at h
        cases h
      · rw [runInTurn_ended hl ht] at h ⊢
        rcases hr : p.runInTurn deadline rest (p.finish process time u).2 with ⟨⟨outcomes, exceeded⟩, x⟩
        rw [hr] at h
        cases h
        rw [ih hr]
        rfl

lemma locate_runInTurn {tools : List Tool} {other : Tool}
    (hp : ∀ tool ∈ tools, '/' ∉ tool.reportName.toList) (ho : '/' ∉ other.reportName.toList)
    (hne : ∀ tool ∈ tools, tool.reportName ≠ other.reportName) :
    (p.runInTurn deadline tools w).2.files.locate (p.rawPath other) =
      w.files.locate (p.rawPath other) := by
  induction tools generalizing w with
  | nil => rfl
  | cons tool rest ih =>
    have hn := hp tool (.head _)
    have hd := (hne tool (.head _)).symm
    have hrest {v : World σ} := ih (w := v) (fun tool hm => hp tool (.tail _ hm))
      fun tool hm => hne tool (.tail _ hm)
    have hlaunch := (p.touches_launch tool w).1.locate_of_ne hn ho hd
    rcases hl : p.launch tool w with ⟨o | process, v⟩ <;> rw [hl] at hlaunch
    · rw [runInTurn_over hl]
      exact hrest.trans hlaunch
    · obtain ⟨rfl, _, _⟩ := isOpen_launch hl
      rcases ht : process.endBefore? deadline with _ | time
      · rw [runInTurn_late hl ht]
        have hc := (p.touches_close process { v with now := deadline.getD v.now }).1
        exact (hc.locate_of_ne hn ho hd).trans hlaunch
      · rw [runInTurn_ended hl ht]
        have hf := (p.touches_finish process time v).1
        exact hrest.trans ((hf.locate_of_ne hn ho hd).trans hlaunch)

/-- Either the deadline cuts nothing off, or it finds one tool running, and the tools before it came
out as they do without a deadline. -/
lemma runInTurn_cases (p : Workplace) (deadline : Option Nat) (tools : List Tool) (w : World σ) :
    ((p.runInTurn deadline tools w).1.deadlineExceeded = false ∧
      p.runInTurn deadline tools w = p.runInTurn none tools w) ∨
    ∃ before tool after done v process u,
      tools = before ++ tool :: after ∧ p.runInTurn none before w = (⟨done, false⟩, v) ∧
      p.launch tool v = (.running process, u) ∧ process.endBefore? deadline = none ∧
      p.runInTurn deadline tools w =
        (⟨done ++ (tool :: after).map
            (p.cutOff · (p.close process { u with now := deadline.getD u.now })), true⟩,
          p.close process { u with now := deadline.getD u.now }) := by
  induction tools generalizing w with
  | nil => exact .inl ⟨rfl, rfl⟩
  | cons tool rest ih =>
    rcases hl : p.launch tool w with ⟨o | process, v⟩
    · rw [runInTurn_over hl, runInTurn_over hl]
      rcases ih v with ⟨hd, he⟩ | ⟨before, next, after, done, u, process, x, rfl, hb, hn, ht, he⟩
      · exact .inl ⟨hd, by rw [he]⟩
      · refine .inr ⟨tool :: before, next, after, o :: done, u, process, x, rfl, ?_, hn, ht, ?_⟩
        · rw [runInTurn_over hl, hb]
        · rw [he]
          rfl
    · rcases ht : process.endBefore? deadline with _ | time
      · exact .inr ⟨[], tool, rest, [], w, process, v, rfl, rfl, hl, ht, runInTurn_late hl ht⟩
      · rw [runInTurn_ended hl ht, runInTurn_ended hl (Process.end?_of_endBefore? ht)]
        rcases ih (p.finish process time v).2 with
          ⟨hd, he⟩ | ⟨before, next, after, done, u, running, x, rfl, hb, hn, hlate, he⟩
        · exact .inl ⟨hd, by rw [he]⟩
        · refine .inr ⟨tool :: before, next, after, (p.finish process time v).1 :: done, u, running,
            x, rfl, ?_, hn, hlate, ?_⟩
          · rw [runInTurn_ended hl (Process.end?_of_endBefore? ht), hb]
          · rw [he]
            rfl

end Premerge.Workplace
