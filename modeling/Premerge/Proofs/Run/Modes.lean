import Premerge.Proofs.Job.Counting
import Premerge.Proofs.Run.InTurn
import Premerge.Proofs.Run.Interleaving
import Premerge.Proofs.Run.Together

namespace Premerge.Workplace

open Premerge.World

variable {σ : Type} {p : Workplace} {first w v : World σ} {tools rest : List Tool}
  {done : List (Tool × Option Launch)}

lemma Sound.end? {s : Stage σ} (h : p.Sound first tools s) (hi : p.Independent first tools)
    {place : Nat} {tool : Tool} {process : Process}
    (hs : s.slots[place]? = some (tool, some (.running process))) :
    ∃ time, process.endBefore? none = some time := by
  have hm := List.mem_of_getElem? (h.getElem? hs)
  have hf := (hi.ends tool hm).foretold? (hi.plain tool hm) (hi.startsAlike tool hm)
  rw [← (h.fits _ _ _ hs).1] at hf
  obtain ⟨o, ho⟩ := Option.isSome_iff_exists.mp hf
  obtain ⟨time, ht, _⟩ := Option.map_eq_some_iff.mp ho
  exact ⟨time, Process.endBefore?_eq_some_iff.mpr ⟨ht, by simp⟩⟩

lemma advance_launch (p : Workplace) (done : List (Tool × Option Launch)) (tool : Tool)
    (more : List (Tool × Option Launch)) (w : World σ) :
    p.Advance ⟨done ++ (tool, none) :: more, w⟩
      ⟨done ++ (tool, some (p.launch tool w).1) :: more, (p.launch tool w).2⟩ := by
  have hs : (done ++ (tool, none) :: more)[done.length]? = some (tool, none) := by simp
  simpa using Advance.launch (p := p) (s := ⟨done ++ (tool, none) :: more, w⟩) hs

lemma advance_finish (p : Workplace) (done : List (Tool × Option Launch)) (tool : Tool)
    (more : List (Tool × Option Launch)) (w : World σ) {process : Process} {time : Nat}
    (ht : process.end? = some time) :
    p.Advance ⟨done ++ (tool, some (.running process)) :: more, w⟩
      ⟨done ++ (tool, some (.over (p.finish process time w).1)) :: more,
        (p.finish process time w).2⟩ := by
  have hs : (done ++ (tool, some (.running process)) :: more)[done.length]? =
    some (tool, some (.running process)) := by simp
  simpa using Advance.finish (p := p)
    (s := ⟨done ++ (tool, some (.running process)) :: more, w⟩) hs ht

lemma runs_next {tool : Tool} {more : List (Tool × Option Launch)}
    (hi : p.Independent first tools) (h : p.Sound first tools ⟨done ++ (tool, none) :: more, w⟩) :
    ∃ o v, p.Runs ⟨done ++ (tool, none) :: more, w⟩ ⟨done ++ (tool, some (.over o)) :: more, v⟩ ∧
      ∀ rest, p.runInTurn none (tool :: rest) w =
        (⟨o :: (p.runInTurn none rest v).1.outcomes,
          (p.runInTurn none rest v).1.deadlineExceeded⟩, (p.runInTurn none rest v).2) := by
  have ha := p.advance_launch done tool more w
  rcases hl : p.launch tool w with ⟨o | process, v⟩ <;> rw [hl] at ha
  · exact ⟨o, v, .single ha, fun _ => runInTurn_over hl⟩
  · have hp : (done ++ (tool, some (.running process)) :: more)[done.length]? =
      some (tool, some (.running process)) := by simp
    obtain ⟨time, ht⟩ := (h.advance hi ha).end? hi hp
    have hf := p.advance_finish done tool more v (Process.endBefore?_eq_some_iff.mp ht).1
    exact ⟨_, _, .tail (.single ha) hf, fun _ => runInTurn_ended hl ht⟩

lemma runs_inTurn (hi : p.Independent first tools)
    (h : p.Sound first tools ⟨done ++ (Stage.begin rest w).slots, w⟩) :
    ∃ slots outcomes v, p.runInTurn none rest w = (⟨outcomes, false⟩, v) ∧
      p.Runs ⟨done ++ (Stage.begin rest w).slots, w⟩ ⟨done ++ slots, v⟩ ∧
      slots.map Prod.snd = outcomes.map fun o => some (.over o) := by
  induction rest generalizing done w with
  | nil => exact ⟨[], [], w, rfl, .refl, rfl⟩
  | cons tool rest ih =>
    obtain ⟨o, v, hr, ht⟩ := runs_next hi h
    have hd : done ++ (tool, some (.over o)) :: (Stage.begin rest v).slots =
      (done ++ [(tool, some (.over o))]) ++ (Stage.begin rest v).slots := by simp
    have hs := h.runs hi hr
    obtain ⟨slots, outcomes, u, he, hru, ho⟩ := ih (w := v) (hd ▸ hs)
    refine ⟨(tool, some (.over o)) :: slots, o :: outcomes, u, by rw [ht, he], ?_, by simp [ho]⟩
    simp only [List.append_assoc, List.singleton_append] at hru
    exact hr.trans hru

lemma runs_launchAll (p : Workplace) (done : List (Tool × Option Launch)) (rest : List Tool)
    (w : World σ) : p.Runs ⟨done ++ (Stage.begin rest w).slots, w⟩
      ⟨done ++ rest.zip ((p.launchAll rest w).1.map some), (p.launchAll rest w).2⟩ := by
  induction rest generalizing done w with
  | nil => exact .refl
  | cons tool rest ih =>
    have hr := ih (done ++ [(tool, some (p.launch tool w).1)]) (p.launch tool w).2
    simp only [List.append_assoc, List.singleton_append] at hr
    exact .head (p.advance_launch done tool (Stage.begin rest w).slots w) hr

lemma runs_finishAll {due : List (Nat × Nat × Process)} {slots : List (Tool × Option Launch)}
    (hd : due.Pairwise fun a b => a.2.1 ≠ b.2.1)
    (h : ∀ entry ∈ due, entry.2.2.end? = some entry.1 ∧
      ∃ tool, slots[entry.2.1]? = some (tool, some (.running entry.2.2))) (w : World σ) :
    ∃ left, p.Runs ⟨slots, w⟩ ⟨left, (p.finishAll due w).2⟩ ∧
      ∀ index, left[index]?.map Prod.snd = match (p.finishAll due w).1.lookup index with
        | some o => some (some (.over o))
        | none => slots[index]?.map Prod.snd := by
  induction hd generalizing slots w with
  | nil => exact ⟨slots, .refl, fun _ => rfl⟩
  | @cons entry rest hne _ ih =>
    obtain ⟨time, place, process⟩ := entry
    obtain ⟨ht, tool, hs⟩ := h _ (.head _)
    have ha := Advance.finish (p := p) (s := ⟨slots, w⟩) hs ht
    -- The entries have different places, so each still finds its process where it was.
    have hrest : ∀ entry ∈ rest, entry.2.2.end? = some entry.1 ∧ ∃ other,
        (slots.set place (tool, some (.over (p.finish process time w).1)))[entry.2.1]? =
          some (other, some (.running entry.2.2)) := by
      intro entry hm
      rw [List.getElem?_set_ne (hne entry hm)]
      exact h entry (.tail _ hm)
    obtain ⟨left, hr, hl⟩ := ih hrest (p.finish process time w).2
    refine ⟨left, .head ha hr, fun index => ?_⟩
    rw [hl, finishAll_cons, List.lookup_cons]
    by_cases hp : index = place
    · subst hp
      have hnone : (p.finishAll rest (p.finish process time w).2).1.lookup index = none := by
        rw [← Option.not_isSome_iff_eq_none, lookup_finishAll_isSome]
        rintro ⟨entry, hm, he⟩
        exact hne entry hm he.symm
      obtain ⟨hlt, _⟩ := List.getElem?_eq_some_iff.mp hs
      simp [hnone, hlt]
    · have hf : (index == place) = false := by simpa using hp
      rw [hf, List.getElem?_set_ne fun he => hp he.symm]

lemma launched_slots (p : Workplace) (tools : List Tool) (w : World σ) :
    (tools.zip ((p.launchAll tools w).1.map some)).map Prod.snd = (p.launchAll tools w).1.map some :=
  List.map_snd_zip (by simp [length_launchAll])

lemma launched_slot {index : Nat} {launch : Launch}
    (h : (p.launchAll tools w).1[index]? = some launch) :
    ∃ tool, (tools.zip ((p.launchAll tools w).1.map some))[index]? = some (tool, some launch) := by
  have he := congrArg (fun l => l[index]?) (launched_slots p tools w)
  simp only [List.getElem?_map, h, Option.map_some, Option.map_eq_some_iff] at he
  obtain ⟨⟨tool, slot⟩, hs, rfl⟩ := he
  exact ⟨tool, hs⟩

lemma runs_due (p : Workplace) (deadline : Option Nat) (tools : List Tool) (w : World σ) :
    let launched := p.launchAll tools w
    let ended := p.finishAll (ending deadline (running 0 launched.1)) launched.2
    ∃ left, p.Runs (.begin tools w) ⟨left, ended.2⟩ ∧
      ∀ index : Nat, left[index]?.map Prod.snd = match ended.1.lookup index with
        | some o => some (some (.over o))
        | none => launched.1[index]?.map some := by
  have hdue : ∀ entry ∈ ending deadline (running 0 (p.launchAll tools w).1),
      entry.2.2.end? = some entry.1 ∧ ∃ tool,
        (tools.zip ((p.launchAll tools w).1.map some))[entry.2.1]? =
          some (tool, some (.running entry.2.2)) := by
    rintro ⟨time, place, process⟩ hm
    obtain ⟨hr, ht⟩ := mem_ending.mp hm
    exact ⟨(Process.endBefore?_eq_some_iff.mp ht).1, launched_slot (mem_running_zero.mp hr)⟩
  obtain ⟨left, hruns, hleft⟩ := runs_finishAll
    (pairwise_ending deadline (pairwise_running 0 _)) hdue (p.launchAll tools w).2
  refine ⟨left, (runs_launchAll p [] tools w).trans hruns, fun index => ?_⟩
  have hs := congrArg (fun l => l[index]?) (launched_slots p tools w)
  simp only [List.getElem?_map] at hs
  rw [hleft, hs]

lemma launched_ends (hi : p.Independent w tools) {index : Nat} {process : Process}
    (h : (p.launchAll tools w).1[index]? = some (.running process)) :
    ∃ time, process.endBefore? none = some time := by
  obtain ⟨tool, hs⟩ := launched_slot h
  exact ((sound_begin p w tools).runs hi (runs_launchAll p [] tools w)).end? hi hs

lemma lateAmong_launched (hi : p.Independent w tools) :
    lateAmong none (p.launchAll tools w).1 = [] := by
  refine List.eq_nil_iff_forall_not_mem.mpr fun process hm => ?_
  obtain ⟨hl, hn⟩ := mem_lateAmong.mp hm
  obtain ⟨index, hr⟩ := List.getElem?_of_mem hl
  obtain ⟨time, ht⟩ := launched_ends hi hr
  rw [hn] at ht
  cases ht

lemma runs_together (hi : p.Independent w tools) :
    ∃ s outcomes, p.runTogether none tools w = (⟨outcomes, false⟩, s.world) ∧
      p.Runs (.begin tools w) s ∧ s.IsOver outcomes := by
  obtain ⟨left, hruns, hleft⟩ := p.runs_due none tools w
  have hr : p.runTogether none tools w = _ := runTogether_eq (Prod.eta (p.launchAll tools w)).symm
    (Prod.eta (p.finishAll _ (p.launchAll tools w).2)).symm
  rw [lateAmong_launched hi] at hr
  refine ⟨_, _, hr, hruns, List.ext_getElem? fun index => ?_⟩
  rw [List.getElem?_map, List.getElem?_map, hleft, collect_getElem?, Nat.zero_add]
  have hkey := lookup_ending_isSome p none (p.launchAll tools w).1 (p.launchAll tools w).2 index
  rcases ho : (p.finishAll (ending none (running 0 (p.launchAll tools w).1))
    (p.launchAll tools w).2).1.lookup index with _ | o <;> rw [ho] at hkey
  · rcases hl : (p.launchAll tools w).1[index]? with _ | ⟨done | process⟩
    · rfl
    · rfl
    · obtain ⟨time, ht⟩ := launched_ends hi hl
      cases hkey.mpr ⟨process, time, hl, ht⟩
  · obtain ⟨process, time, hl, _⟩ := hkey.mp rfl
    rw [hl]
    rfl

/-- Outcomes that tools can come to, in whatever order they are launched and end. -/
def Completes (p : Workplace) (tools : List Tool) (w : World σ) (outcomes : List Outcome) : Prop :=
  ∃ s, p.Runs (.begin tools w) s ∧ s.IsOver outcomes

lemma completes_runTools (hi : p.Independent w tools) (together : Bool) :
    (p.runTools together none tools w).1.deadlineExceeded = false ∧
      p.Completes tools w (p.runTools together none tools w).1.outcomes := by
  cases together with
  | true =>
    obtain ⟨s, outcomes, he, hr, ho⟩ := runs_together hi
    simp only [runTools, if_true, he]
    exact ⟨trivial, s, hr, ho⟩
  | false =>
    have hs : p.Sound w tools ⟨[] ++ (Stage.begin tools w).slots, w⟩ := sound_begin p w tools
    obtain ⟨slots, outcomes, v, he, hr, ho⟩ := runs_inTurn hi hs
    simp only [runTools, he]
    exact ⟨rfl, ⟨slots, v⟩, hr, ho⟩

lemma Completes.foretold (hi : p.Independent w tools) {outcomes : List Outcome}
    (h : p.Completes tools w outcomes) : outcomes.map (fun o => some o.untimed) =
      tools.map fun tool => (p.launch tool w).1.foretold? := by
  obtain ⟨s, hr, ho⟩ := h
  exact ((sound_begin p w tools).runs hi hr).outcomes ho

lemma isOf_of_foretold {outcomes : List Outcome} (h : outcomes.map (fun o => some o.untimed) =
    tools.map fun tool => (p.launch tool w).1.foretold?) :
    List.Forall₂ (fun tool o => o.IsOf tool) tools outcomes := by
  induction tools generalizing outcomes with
  | nil =>
    obtain rfl : outcomes = [] := by simpa using h
    exact .nil
  | cons tool rest ih =>
    cases outcomes with
    | nil => cases h
    | cons o more =>
      simp only [List.map_cons, List.cons.injEq] at h
      exact .cons (Outcome.isOf_untimed.mp (isOf_foretold h.1.symm)) (ih h.2)

lemma Alike.execute?_untimed (hi : p.Independent w tools) (h : p.Alike w v)
    (hw : p.HasNoReports w.files tools) (hv : p.HasNoReports v.files tools) {tool : Tool}
    (hm : tool ∈ tools) :
    (p.execute? tool v).map Outcome.untimed = (p.launch tool w).1.foretold? := by
  rw [Workplace.execute?_untimed]
  have hn := hi.plain tool hm
  exact h.foretold? hn (hi.startsAlike tool hm)
    (h.files.locate (isEntryName_raw hn) (hw tool hm) (hv tool hm))

/-- Together, in turn, or in any other order: apart from the time they take, the outcomes are those
of the tools that run alone, one for each tool. -/
theorem outcomes_in_every_order (hi : p.Independent w tools) :
    (p.runTools true none tools w).1.outcomes.map Outcome.untimed =
        (p.runTools false none tools w).1.outcomes.map Outcome.untimed ∧
      (∀ together, (p.runTools together none tools w).1.deadlineExceeded = false ∧
        p.Completes tools w (p.runTools together none tools w).1.outcomes) ∧
      ∀ outcomes, p.Completes tools w outcomes →
        outcomes.map Outcome.untimed =
          (p.runTools false none tools w).1.outcomes.map Outcome.untimed ∧
        List.Forall₂ (fun tool o => o.IsOf tool) tools outcomes ∧
        (∀ v, p.Alike w v → p.HasNoReports w.files tools → p.HasNoReports v.files tools →
          outcomes.map (fun o => some o.untimed) =
            tools.map fun tool => (p.execute? tool v).map Outcome.untimed) ∧
        ∀ report : JobReport, report.outcomes = outcomes →
          report.tally.passed + report.tally.failed + report.tally.skipped = tools.length := by
  have hmode {outcomes : List Outcome} (h : p.Completes tools w outcomes) :
      outcomes.map Outcome.untimed =
        (p.runTools false none tools w).1.outcomes.map Outcome.untimed := by
    have he := (h.foretold hi).trans ((completes_runTools hi false).2.foretold hi).symm
    refine List.map_injective_iff.mpr (fun _ _ => Option.some.inj) ?_
    simpa [Function.comp_def] using he
  refine ⟨hmode (completes_runTools hi true).2, completes_runTools hi, fun outcomes h => ?_⟩
  have hf := h.foretold hi
  refine ⟨hmode h, isOf_of_foretold hf, fun v ha hw hv => ?_, ?_⟩
  · rw [hf]
    exact List.map_congr_left fun tool hm => (ha.execute?_untimed hi hw hv hm).symm
  · rintro report rfl
    rw [JobReport.tally, Tally.sum_ofOutcomes, ← (isOf_of_foretold hf).length_eq]

def benchPrograms : Programs := fun call =>
  match call.name with
  | "lint" => some ⟨[.pause 20, .write .output [108, 10], .pause 10], .exit 0, 0⟩
  | "test" => some ⟨[.write .errors [116, 10], .pause 5], .exit 1, 0⟩
  | "watch" => some ⟨[.write .output [119, 10]], .never, 0⟩
  | _ => none

def bench : World Unit where
  files := ⟨[(["work"], .directory), (["work", "reports"], .directory)], ["work"]⟩
  programs := benchPrograms
  environment := .empty
  now := 0
  epoch := ⟨0, 0⟩
  draws := fun _ => 0
  drawn := 0
  givenUpAfter := 0
  checksAtOnce := 1
  past := []
  services := ()

def benchPlace : Workplace := ⟨⟨"reports"⟩, ".", ⟨[], .empty⟩⟩

def benchTools : List Tool :=
  [.ofCommand "lint" ["lint", "."], .ofCommand "ghost" ["ghost"],
    (Tool.ofCommand "watch" ["watch"]).withTimeout 1, (Tool.ofCommand "test" ["test"]).fatal,
    (Tool.ofCommand "docs" ["docs"]).disabled]

lemma independent_bench : benchPlace.Independent bench benchTools where
  distinct := by decide +kernel
  plain := by decide +kernel
  startsAlike := by
    intro tool hm
    have hd : bench.files.locate benchPlace.directory = .ok ⟨["work"], some .directory, false⟩ :=
      rfl
    refine startsAlike_of_directory hd ?_
    revert tool
    decide +kernel
  ends := by
    unfold Ends
    decide +kernel

theorem outcomes_in_every_order_bench :
    benchPlace.Independent bench benchTools ∧ benchPlace.HasNoReports bench.files benchTools ∧
      (benchPlace.runTools true none benchTools bench).1.outcomes.map (fun o => some o.untimed) =
        benchTools.map fun tool => (benchPlace.execute? tool bench).map Outcome.untimed := by
  have hn : benchPlace.HasNoReports bench.files benchTools := by
    unfold HasNoReports
    decide +kernel
  obtain ⟨_, hc, h⟩ := outcomes_in_every_order independent_bench
  exact ⟨independent_bench, hn, (h _ (hc true).2).2.2.1 bench (.refl _ _) hn hn⟩

end Premerge.Workplace
