import Mathlib.Order.Nat
import Premerge.Proofs.Run.InTurn
import Premerge.Proofs.Run.Together
import Premerge.Proofs.World.Quiet

namespace Premerge

open Premerge.World

variable {σ : Type}

namespace World

structure Passes (w v : World σ) (moments : List Moment) : Prop where
  le : w.now ≤ v.now
  history : v.history = w.history ++ moments
  between : ∀ moment ∈ moments, w.now ≤ moment.time ∧ moment.time ≤ v.now

variable {w v u : World σ} {earlier later moments : List Moment}

lemma Passes.refl (w : World σ) : w.Passes w [] :=
  ⟨Nat.le_refl _, (List.append_nil _).symm, by simp⟩

lemma Passes.trans (h : w.Passes v earlier) (h' : v.Passes u later) :
    w.Passes u (earlier ++ later) := by
  refine ⟨h.le.trans h'.le, by rw [h'.history, h.history, List.append_assoc], fun moment hm => ?_⟩
  rcases List.mem_append.mp hm with hm | hm
  · exact ⟨(h.between moment hm).1, (h.between moment hm).2.trans h'.le⟩
  · exact ⟨h.le.trans (h'.between moment hm).1, (h'.between moment hm).2⟩

lemma passes_note (w : World σ) (what : Happening) : w.Passes (w.note what) [⟨w.now, what⟩] :=
  ⟨Nat.le_refl _, history_note w what, by simp [World.note]⟩

lemma Passes.note (h : w.Passes v moments) (what : Happening) :
    w.Passes (v.note what) (moments ++ [⟨v.now, what⟩]) :=
  h.trans (passes_note v what)

lemma passes_files (w : World σ) (files : FileTree) : w.Passes { w with files } [] :=
  ⟨Nat.le_refl _, (List.append_nil _).symm, by simp⟩

lemma passes_wait {time : Nat} (h : w.now ≤ time) : w.Passes { w with now := time } [] :=
  ⟨h, (List.append_nil _).symm, by simp⟩

end World

def EndsLater (moments later : List Moment) : Prop :=
  ∀ moment ∈ moments, ∀ tool, moment.what = .toolStarted tool →
    ∃ ended ∈ later, ended.what = .toolEnded tool

def EndsTools (moments : List Moment) : Prop :=
  ∀ before started after, moments = before ++ started :: after → EndsLater [started] after

section

variable {earlier later moments more : List Moment}

lemma endsLater_of_startsNone (h : ∀ moment ∈ moments, ∀ tool, moment.what ≠ .toolStarted tool)
    (later : List Moment) : EndsLater moments later :=
  fun moment hm tool hw => absurd hw (h moment hm tool)

lemma EndsLater.mono (h : EndsLater moments later) (hs : later ⊆ more) : EndsLater moments more := by
  intro moment hm tool hw
  obtain ⟨ended, he, hwhat⟩ := h moment hm tool hw
  exact ⟨ended, hs he, hwhat⟩

lemma endsTools_of_startsNone
    (h : ∀ moment ∈ moments, ∀ tool, moment.what ≠ .toolStarted tool) : EndsTools moments := by
  rintro before started after rfl
  refine endsLater_of_startsNone (fun moment hm => h moment ?_) _
  rw [List.mem_singleton.mp hm]
  exact List.mem_append_right _ List.mem_cons_self

lemma EndsLater.endsTools (h : EndsLater earlier later) (hl : EndsTools later) :
    EndsTools (earlier ++ later) := by
  intro before started after he
  rcases List.append_eq_append_iff.mp he with ⟨rest, rfl, hlater⟩ | ⟨rest, rfl, hrest⟩
  · exact hl rest started after hlater
  · rcases rest with _ | ⟨first, rest⟩
    · exact hl [] started after hrest.symm
    · obtain ⟨rfl, rfl⟩ := List.cons.inj hrest
      have hstarted : EndsLater [started] later := fun moment hm =>
        h moment (List.mem_append_right _ (by simpa using .inl (List.mem_singleton.mp hm)))
      exact hstarted.mono (List.subset_append_right _ _)

lemma EndsTools.append (h : EndsTools earlier) (h' : EndsTools later) :
    EndsTools (earlier ++ later) := by
  induction earlier with
  | nil => exact h'
  | cons first rest ih =>
    have hrest : EndsTools rest := by
      rintro before started after rfl
      exact h (first :: before) started after rfl
    have hfirst : EndsLater [first] (rest ++ later) :=
      (h [] first rest rfl).mono (List.subset_append_left _ _)
    exact hfirst.endsTools (ih hrest)

end

namespace Workplace

lemma passes_launch (p : Workplace) (tool : Tool) (w : World σ) :
    ∃ news, w.Passes (p.launch tool w).2 news ∧
      ∀ moment ∈ news, ∀ name, moment.what = .toolStarted name →
        ∃ process, (p.launch tool w).1 = .running process ∧ process.tool.name = name := by
  rcases p.launch_cases tool w with
    ⟨reason, _, hl⟩ | ⟨words, e, v, _, hs, hl⟩ | ⟨words, behaviour, v, _, hs, hl⟩ <;> rw [hl]
  · exact ⟨_, passes_note w _, by simp⟩
  · have hv : w.Passes v [] := by
      rcases startProgram_error hs with ⟨_, _, rfl⟩ | ⟨_, _, _, _, rfl⟩ | ⟨_, _, files, _, _, _, _, _, rfl⟩
      · exact .refl _
      · exact .refl _
      · exact passes_files w files
    exact ⟨_, hv.note _, by simp⟩
  · obtain ⟨program, arguments, files, _, _, _, rfl⟩ := startProgram_ok hs
    refine ⟨_, ((passes_files w files).note _).note _, ?_⟩
    simp

lemma passes_close (p : Workplace) (process : Process) (w : World σ) :
    w.Passes (p.close process w) [⟨w.now, .toolEnded process.tool.name⟩] := by
  unfold close
  split
  next files _ => exact (passes_files w files).note _
  · exact passes_note w _

lemma passes_finish (p : Workplace) (process : Process) {time : Nat} {w : World σ}
    (h : w.now ≤ time) :
    ∃ event, w.Passes (p.finish process time w).2
      [⟨time, .toolEnded process.tool.name⟩, ⟨time, .logged event⟩] := by
  obtain ⟨event, he⟩ := p.finish_world process time w
  have hc := (passes_wait h).trans (p.passes_close process { w with now := time })
  have hn : (p.close process { w with now := time }).now = time := (p.touches_close _ _).2
  refine ⟨event, ?_⟩
  have hlog := hc.note (.logged event)
  rw [hn] at hlog
  rw [he]
  exact hlog

lemma le_of_endBefore? {process : Process} {deadline : Option Nat} {time : Nat}
    (h : process.endBefore? deadline = some time) : process.began ≤ time := by
  obtain ⟨he, _⟩ := Process.endBefore?_eq_some_iff.mp h
  rw [Process.end?] at he
  obtain ⟨span, _, rfl⟩ := Option.map_eq_some_iff.mp he
  exact Nat.le_add_right _ _

variable {p : Workplace} {deadline : Nat} {w : World σ}

lemma passes_runInTurn (tools : List Tool) (h : w.now ≤ deadline) :
    ∃ news, w.Passes (p.runInTurn (some deadline) tools w).2 news ∧ EndsTools news ∧
      (p.runInTurn (some deadline) tools w).2.now ≤ deadline := by
  induction tools generalizing w with
  | nil => exact ⟨[], .refl w, endsTools_of_startsNone (by simp), h⟩
  | cons tool rest ih =>
    obtain ⟨started, hpl, hst⟩ := p.passes_launch tool w
    have hnow := (p.touches_launch tool w).2
    rcases hl : p.launch tool w with ⟨o | process, v⟩ <;> rw [hl] at hpl hst hnow
    · rw [runInTurn_over hl]
      obtain ⟨news, hp, he, hle⟩ := ih (hnow.trans_le h)
      refine ⟨_, hpl.trans hp, EndsTools.append (endsTools_of_startsNone ?_) he, hle⟩
      intro moment hm name hw
      obtain ⟨_, hrun, _⟩ := hst moment hm name hw
      cases hrun
    · obtain ⟨rfl, hb, _⟩ := isOpen_launch hl
      have hends (later : List Moment) (ended : Moment) (hm : ended ∈ later)
          (hw : ended.what = .toolEnded process.tool.name) : EndsLater started later := by
        intro moment hmem name hwhat
        obtain ⟨_, hrun, rfl⟩ := hst moment hmem name hwhat
        cases hrun
        exact ⟨ended, hm, hw⟩
      rcases ht : process.endBefore? (some deadline) with _ | time
      · rw [runInTurn_late hl ht, Option.getD_some]
        have hc := (passes_wait (hnow.trans_le h)).trans
          (p.passes_close process { v with now := deadline })
        refine ⟨_, hpl.trans hc, (hends _ _ (List.mem_singleton_self _) rfl).endsTools
          (endsTools_of_startsNone (by simp)), ?_⟩
        exact (p.touches_close process { v with now := deadline }).2.le
      · rw [runInTurn_ended hl ht]
        have hle : v.now ≤ time := (hnow.trans hb.symm).le.trans (le_of_endBefore? ht)
        have hlt : time < deadline := (Process.endBefore?_eq_some_iff.mp ht).2 deadline rfl
        obtain ⟨event, hf⟩ := p.passes_finish process hle
        obtain ⟨news, hp, he, hdone⟩ := ih (w := (p.finish process time v).2)
          ((p.touches_finish process time v).2.trans_le hlt.le)
        refine ⟨_, (hpl.trans hf).trans hp, EndsTools.append ?_ he, hdone⟩
        exact (hends _ _ List.mem_cons_self rfl).endsTools (endsTools_of_startsNone (by simp))

lemma passes_launchAll (p : Workplace) (tools : List Tool) (w : World σ) :
    ∃ news, w.Passes (p.launchAll tools w).2 news ∧
      ∀ moment ∈ news, ∀ name, moment.what = .toolStarted name →
        ∃ process, .running process ∈ (p.launchAll tools w).1 ∧ process.tool.name = name := by
  induction tools generalizing w with
  | nil => exact ⟨[], .refl w, by simp⟩
  | cons tool rest ih =>
    obtain ⟨first, hf, hfirst⟩ := p.passes_launch tool w
    obtain ⟨news, hn, hrest⟩ := ih (p.launch tool w).2
    refine ⟨_, hf.trans hn, fun moment hm name hw => ?_⟩
    rcases List.mem_append.mp hm with hm | hm
    · obtain ⟨process, hl, hname⟩ := hfirst moment hm name hw
      exact ⟨process, hl ▸ List.mem_cons_self, hname⟩
    · obtain ⟨process, hl, hname⟩ := hrest moment hm name hw
      exact ⟨process, List.mem_cons_of_mem _ hl, hname⟩

lemma now_launchAll (p : Workplace) (tools : List Tool) (w : World σ) :
    (p.launchAll tools w).2.now = w.now := by
  induction tools generalizing w with
  | nil => rfl
  | cons tool rest ih => exact (ih _).trans (p.touches_launch tool w).2

structure EndsEach (processes : List Process) (moments : List Moment) : Prop where
  ended : ∀ process ∈ processes, ∃ moment ∈ moments, moment.what = .toolEnded process.tool.name
  startsNone : ∀ moment ∈ moments, ∀ tool, moment.what ≠ .toolStarted tool

lemma endsEach_nil : EndsEach [] [] :=
  ⟨by simp, by simp⟩

lemma EndsEach.append {processes others : List Process} {moments more : List Moment}
    (h : EndsEach processes moments) (h' : EndsEach others more) :
    EndsEach (processes ++ others) (moments ++ more) := by
  refine ⟨fun process hm => ?_, fun moment hm => ?_⟩
  · rcases List.mem_append.mp hm with hm | hm
    · obtain ⟨moment, hmem, hw⟩ := h.ended process hm
      exact ⟨moment, List.mem_append_left _ hmem, hw⟩
    · obtain ⟨moment, hmem, hw⟩ := h'.ended process hm
      exact ⟨moment, List.mem_append_right _ hmem, hw⟩
  · exact (List.mem_append.mp hm).elim (h.startsNone moment) (h'.startsNone moment)

lemma passes_finishAll {due : List (Nat × Nat × Process)} (hs : due.Pairwise fun a b => a.1 ≤ b.1)
    (hb : ∀ entry ∈ due, w.now ≤ entry.1 ∧ entry.1 ≤ deadline) (h : w.now ≤ deadline) :
    ∃ news, w.Passes (p.finishAll due w).2 news ∧ EndsEach (due.map fun entry => entry.2.2) news ∧
      (p.finishAll due w).2.now ≤ deadline := by
  induction due generalizing w with
  | nil => exact ⟨[], .refl w, endsEach_nil, h⟩
  | cons entry rest ih =>
    obtain ⟨time, place, process⟩ := entry
    rw [List.forall_mem_cons] at hb
    obtain ⟨hfirst, hrest⟩ := List.pairwise_cons.mp hs
    obtain ⟨event, hf⟩ := p.passes_finish process hb.1.1
    have hn := (p.touches_finish process time w).2
    obtain ⟨news, hp, he, hle⟩ := ih (w := (p.finish process time w).2) hrest
      (fun other hm => ⟨hn.trans_le (hfirst other hm), (hb.2 other hm).2⟩) (hn.trans_le hb.1.2)
    have hone : EndsEach [process]
        [⟨time, .toolEnded process.tool.name⟩, ⟨time, .logged event⟩] := ⟨by simp, by simp⟩
    exact ⟨_, hf.trans hp, hone.append he, hle⟩

lemma passes_closeAll (p : Workplace) (late : List Process) (w : World σ) :
    ∃ news, w.Passes (p.closeAll late w) news ∧ EndsEach late news ∧
      (p.closeAll late w).now = w.now := by
  induction late generalizing w with
  | nil => exact ⟨[], .refl w, endsEach_nil, rfl⟩
  | cons process rest ih =>
    obtain ⟨news, hp, he, hn⟩ := ih (p.close process w)
    have hone : EndsEach [process] [⟨w.now, .toolEnded process.tool.name⟩] := ⟨by simp, by simp⟩
    exact ⟨_, (p.passes_close process w).trans hp, hone.append he,
      hn.trans (p.touches_close process w).2⟩

lemma passes_closing (late : List Process) (h : w.now ≤ deadline) :
    ∃ news, w.Passes (p.closing (some deadline) late w) news ∧ EndsEach late news ∧
      (p.closing (some deadline) late w).now ≤ deadline := by
  rcases late with _ | ⟨process, rest⟩
  · exact ⟨[], .refl w, endsEach_nil, h⟩
  · obtain ⟨news, hp, he, hn⟩ := p.passes_closeAll (process :: rest) { w with now := deadline }
    exact ⟨news, (passes_wait h).trans hp, he, hn.le⟩

lemma pairwise_le_ending (deadline : Option Nat) (processes : List (Nat × Process)) :
    (ending deadline processes).Pairwise fun a b => a.1 ≤ b.1 := by
  refine (List.pairwise_mergeSort ?_ ?_ _).imp of_decide_eq_true
  · intro a b c hab hbc
    simp only [decide_eq_true_eq] at hab hbc ⊢
    exact hab.trans hbc
  · intro a b
    simpa using Nat.le_total a.1 b.1

lemma passes_runTogether (tools : List Tool) (h : w.now ≤ deadline) :
    ∃ news, w.Passes (p.runTogether (some deadline) tools w).2 news ∧ EndsTools news ∧
      (p.runTogether (some deadline) tools w).2.now ≤ deadline := by
  obtain ⟨started, hl, hstarted⟩ := p.passes_launchAll tools w
  have hn := p.now_launchAll tools w
  rw [runTogether_eq (Prod.eta (p.launchAll tools w)).symm
    (Prod.eta (p.finishAll _ (p.launchAll tools w).2)).symm]
  have hdue : ∀ entry ∈ ending (some deadline) (running 0 (p.launchAll tools w).1),
      (p.launchAll tools w).2.now ≤ entry.1 ∧ entry.1 ≤ deadline := by
    rintro ⟨time, place, process⟩ hm
    obtain ⟨hr, ht⟩ := mem_ending.mp hm
    have hb := (launched_process (mem_running_zero.mp hr)).2.1
    exact ⟨(hn.trans hb.symm).le.trans (le_of_endBefore? ht),
      ((Process.endBefore?_eq_some_iff.mp ht).2 deadline rfl).le⟩
  obtain ⟨finished, hf, hends, hle⟩ := passes_finishAll (p := p)
    (pairwise_le_ending (some deadline) (running 0 (p.launchAll tools w).1)) hdue (hn.trans_le h)
  obtain ⟨closed, hc, hlate, hdone⟩ := passes_closing (p := p)
    (lateAmong (some deadline) (p.launchAll tools w).1) hle
  refine ⟨_, hl.trans (hf.trans hc), ?_, hdone⟩
  have hall := hends.append hlate
  refine EndsLater.endsTools (fun moment hm name hw => ?_) (endsTools_of_startsNone hall.startsNone)
  -- A process that runs ends before the deadline or is closed at it.
  obtain ⟨process, hrun, rfl⟩ := hstarted moment hm name hw
  refine hall.ended process (List.mem_append.mpr ?_)
  rcases ht : process.endBefore? (some deadline) with _ | time
  · exact .inr (mem_lateAmong.mpr ⟨hrun, ht⟩)
  · obtain ⟨place, hplace⟩ := List.getElem?_of_mem hrun
    exact .inl (List.mem_map_of_mem (f := fun entry : Nat × Nat × Process => entry.2.2)
      (mem_ending.mpr ⟨mem_running_zero.mpr hplace, ht⟩))

lemma passes_runTools (together : Bool) (tools : List Tool) (h : w.now ≤ deadline) :
    ∃ news, w.Passes (p.runTools together (some deadline) tools w).2 news ∧ EndsTools news ∧
      (p.runTools together (some deadline) tools w).2.now ≤ deadline := by
  cases together with
  | true => exact passes_runTogether tools h
  | false => exact passes_runInTurn tools h

end Workplace

end Premerge
