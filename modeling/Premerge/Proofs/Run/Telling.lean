import Premerge.Proofs.Run.Modes
import Premerge.Proofs.World.Quiet

/-! The log tells what came of a tool by one event, when it is over. So the log agrees with the outcomes
wherever a run is cut off. -/

namespace Premerge

open Premerge.World

variable {σ : Type}

def Event.toolName? : Event → Option String
  | .toolSkipped tool _ | .toolFinished tool _ _ _ | .toolErrored tool _ => some tool
  | _ => none

def Outcome.IsToldBy (o : Outcome) (events : List Event) : Prop :=
  match o.status with
  | .skipped reason => events = [.toolSkipped o.toolName reason]
  | .finished code => events = [.toolFinished o.toolName code o.durationMs (o.policy == .fatal)]
  | .errored message =>
    ∃ failure : Failure, failure.message = message ∧ events = [.toolErrored o.toolName failure]
  | .aborted => events = []

def Event.ofTool (name : String) (events : List Event) : List Event :=
  events.filter (·.toolName? == some name)

lemma Event.ofTool_append (name : String) (events more : List Event) :
    ofTool name (events ++ more) = ofTool name events ++ ofTool name more :=
  List.filter_append events more

lemma Event.ofTool_eq_self {name : String} {events : List Event}
    (h : ∀ event ∈ events, event.toolName? = some name) : ofTool name events = events :=
  List.filter_eq_self.mpr fun event hm => beq_iff_eq.mpr (h event hm)

lemma Event.ofTool_eq_nil {name other : String} {events : List Event}
    (h : ∀ event ∈ events, event.toolName? = some other) (hne : name ≠ other) :
    ofTool name events = [] := by
  refine List.filter_eq_nil_iff.mpr fun event hm => ?_
  simpa [h event hm] using hne.symm

structure Event.Tell (events : List Event) (outcomes : List Outcome) : Prop where
  own : ∀ o ∈ outcomes, o.IsToldBy (Event.ofTool o.toolName events)
  known : ∀ event ∈ events, ∃ o ∈ outcomes, event.toolName? = some o.toolName

namespace Workplace

def IsHeard (tool : Tool) : Option Launch → List Event → Prop
  | none, events => events = []
  | some (.running process), events => process.tool = tool ∧ events = []
  | some (.over o), events => o.IsOf tool ∧ o.IsToldBy events

/-- From one world to the next, the log has told of the tool and of no other. -/
structure TellsOf (tool : Tool) (slot : Option Launch) (w v : World σ) (events : List Event) :
    Prop where
  milestones : v.milestones = w.milestones ++ events
  own : ∀ event ∈ events, event.toolName? = some tool.name
  heard : IsHeard tool slot events

lemma milestones_startProgram (p : Workplace) (tool : Tool) (w : World σ) (words : List String) :
    (p.startProgram tool w words).2.milestones = w.milestones := by
  rw [startProgram.eq_def]
  split
  · rfl
  next program arguments =>
    split
    · rfl
    next files _ =>
      have hs := milestones_start { w with files } ⟨program, arguments, tool.env, some p.directory⟩
      split <;> rename_i hstart <;> rw [hstart] at hs
      · exact hs
      · exact (milestones_note_of_none _ rfl).trans hs

lemma tellsOf_fail {p : Workplace} {tool : Tool} {began : Nat} {failure : Failure}
    {w v : World σ} (h : v.milestones = w.milestones) :
    TellsOf tool (some (.over (p.fail tool began failure v).1)) w (p.fail tool began failure v).2
      [.toolErrored tool.name failure] where
  milestones := by
    rw [← h]
    exact World.milestones_log v _ rfl
  own := by simp [Event.toolName?]
  heard := ⟨⟨rfl, rfl, rfl, rfl⟩, failure, rfl, rfl⟩

lemma tellsOf_launch (p : Workplace) (tool : Tool) (w : World σ) :
    ∃ events, TellsOf tool (some (p.launch tool w).1) w (p.launch tool w).2 events := by
  rw [launch]
  split
  next reason _ =>
    exact ⟨[.toolSkipped tool.name reason], World.milestones_log w _ rfl, by simp [Event.toolName?],
      ⟨rfl, rfl, rfl, rfl⟩, rfl⟩
  next words _ =>
    have hm := p.milestones_startProgram tool w words
    split <;> rename_i hstart <;> rw [hstart] at hm
    · exact ⟨[], by simpa using hm, by simp, rfl, rfl⟩
    · exact ⟨_, tellsOf_fail hm⟩

lemma milestones_close (p : Workplace) (process : Process) (w : World σ) :
    (p.close process w).milestones = w.milestones := by
  unfold close
  split
  · exact milestones_note_of_none _ rfl
  · exact milestones_note_of_none w rfl

lemma milestones_closeAll (p : Workplace) (processes : List Process) (w : World σ) :
    (p.closeAll processes w).milestones = w.milestones := by
  induction processes generalizing w with
  | nil => rfl
  | cons process rest ih => exact (ih _).trans (p.milestones_close process w)

lemma tellsOf_finish (p : Workplace) (process : Process) (time : Nat) (w : World σ) :
    ∃ events, TellsOf process.tool (some (.over (p.finish process time w).1)) w
      (p.finish process time w).2 events := by
  have hc : (p.close process { w with now := time }).milestones = w.milestones :=
    p.milestones_close process { w with now := time }
  rw [finish]
  dsimp only
  split
  · exact ⟨_, tellsOf_fail hc⟩
  · refine ⟨_, ?_, ?_, ⟨rfl, rfl, rfl, rfl⟩, rfl⟩
    · rw [World.milestones_log _ _ rfl, hc]
      rfl
    · simp [Event.toolName?, Outcome.ofTool]

/-- At a stage of a run that began in the first world, the log has told of each tool what it has come to,
and nothing else. -/
structure Heard (first : World σ) (tools : List Tool) (s : Stage σ) (events : List Event) :
    Prop where
  slots_eq : s.slots.map Prod.fst = tools
  milestones : s.world.milestones = first.milestones ++ events
  known : ∀ event ∈ events, ∃ tool ∈ tools, event.toolName? = some tool.name
  heard (place : Nat) (tool : Tool) (slot : Option Launch) :
    s.slots[place]? = some (tool, slot) → IsHeard tool slot (Event.ofTool tool.name events)

lemma heard_begin (w : World σ) (tools : List Tool) : Heard w tools (.begin tools w) [] where
  slots_eq := Stage.map_fst_begin tools w
  milestones := (List.append_nil _).symm
  known := by simp
  heard place tool slot h := by
    simp only [Stage.begin, List.getElem?_map, Option.map_eq_some_iff] at h
    obtain ⟨_, _, he⟩ := h
    cases he
    rfl

namespace Heard

variable {p : Workplace} {first : World σ} {tools : List Tool} {s : Stage σ} {events : List Event}

lemma getElem? (h : Heard first tools s events) {place : Nat} {tool : Tool} {slot : Option Launch}
    (hs : s.slots[place]? = some (tool, slot)) : tools[place]? = some tool := by
  rw [← h.slots_eq, List.getElem?_map, hs, Option.map_some]

lemma set (h : Heard first tools s events) (hn : (tools.map Tool.name).Nodup) {place : Nat}
    {tool : Tool} {slot left : Option Launch} (hs : s.slots[place]? = some (tool, slot))
    (hslot : Event.ofTool tool.name events = []) {v : World σ} {more : List Event}
    (ht : TellsOf tool left s.world v more) :
    Heard first tools ⟨s.slots.set place (tool, left), v⟩ (events ++ more) := by
  have hplace := h.getElem? hs
  refine ⟨(Stage.map_fst_set hs left).trans h.slots_eq, ?_, ?_, fun index other launch hl => ?_⟩
  · rw [ht.milestones, h.milestones, List.append_assoc]
  · intro event hm
    rcases List.mem_append.mp hm with hm | hm
    · exact h.known event hm
    · exact ⟨tool, List.mem_of_getElem? hplace, ht.own event hm⟩
  · rw [List.getElem?_set] at hl
    rw [Event.ofTool_append]
    by_cases hp : place = index
    · rw [if_pos hp] at hl
      split at hl
      · cases hl
        rw [hslot, Event.ofTool_eq_self ht.own]
        exact ht.heard
      · cases hl
    · rw [if_neg hp] at hl
      have hne : other.name ≠ tool.name := ne_of_nodup_map hn hplace (h.getElem? hl) hp
      rw [Event.ofTool_eq_nil ht.own hne, List.append_nil]
      exact h.heard index other launch hl

lemma advance (h : Heard first tools s events) (hn : (tools.map Tool.name).Nodup) {s' : Stage σ}
    (ha : p.Advance s s') : ∃ events', Heard first tools s' events' := by
  cases ha with
  | @launch place tool hs =>
    obtain ⟨more, ht⟩ := p.tellsOf_launch tool s.world
    exact ⟨_, h.set hn hs (h.heard _ _ _ hs) ht⟩
  | @finish place time tool process hs _ =>
    obtain ⟨rfl, hslot⟩ := h.heard _ _ _ hs
    obtain ⟨more, ht⟩ := p.tellsOf_finish process time s.world
    exact ⟨_, h.set hn hs hslot ht⟩
  | pass time => exact ⟨events, h.slots_eq, h.milestones, h.known, h.heard⟩

lemma runs (h : Heard first tools s events) (hn : (tools.map Tool.name).Nodup) {s' : Stage σ}
    (hr : p.Runs s s') : ∃ events', Heard first tools s' events' := by
  induction hr with
  | refl => exact ⟨events, h⟩
  | tail _ ha ih =>
    obtain ⟨_, h'⟩ := ih
    exact h'.advance hn ha

end Heard

def outcomeAt (p : Workplace) (w : World σ) : Tool × Option Launch → Outcome
  | (_, some (.over o)) => o
  | (_, some (.running process)) => p.cutOff process.tool w
  | (tool, none) => p.cutOff tool w

lemma outcomeAt_of_isHeard {p : Workplace} {tool : Tool} {slot : Option Launch}
    {events : List Event} (h : IsHeard tool slot events) (w : World σ) :
    (p.outcomeAt w (tool, slot)).IsOf tool ∧ (p.outcomeAt w (tool, slot)).IsToldBy events := by
  rcases slot with _ | o | process
  · exact ⟨(p.isOf_cutOff tool w).1, h⟩
  · exact h
  · obtain ⟨rfl, he⟩ := h
    exact ⟨(p.isOf_cutOff process.tool w).1, he⟩

def ComesTo (p : Workplace) (tools : List Tool) (w : World σ) (outcomes : List Outcome)
    (v : World σ) : Prop :=
  ∃ s : Stage σ, p.Runs (.begin tools w) s ∧ v.milestones = s.world.milestones ∧
    outcomes = s.slots.map (p.outcomeAt v)

lemma ComesTo.told {p : Workplace} {tools : List Tool} {w v : World σ} {outcomes : List Outcome}
    (h : p.ComesTo tools w outcomes v) (hn : (tools.map Tool.name).Nodup) :
    List.Forall₂ (fun tool o => o.IsOf tool) tools outcomes ∧
      ∃ events, v.milestones = w.milestones ++ events ∧ Event.Tell events outcomes := by
  obtain ⟨s, hr, hv, rfl⟩ := h
  obtain ⟨events, he⟩ := (heard_begin w tools).runs hn hr
  have hslot : ∀ slot ∈ s.slots, (p.outcomeAt v slot).IsOf slot.1 ∧
      (p.outcomeAt v slot).IsToldBy (Event.ofTool slot.1.name events) := by
    intro slot hm
    obtain ⟨place, hs⟩ := List.getElem?_of_mem hm
    exact outcomeAt_of_isHeard (he.heard place slot.1 slot.2 hs) v
  refine ⟨?_, events, hv.trans he.milestones, fun o hm => ?_, fun event hm => ?_⟩
  · rw [← he.slots_eq, List.forall₂_map_left_iff, List.forall₂_map_right_iff, List.forall₂_same]
    exact fun slot hm => (hslot slot hm).1
  · obtain ⟨slot, hs, rfl⟩ := List.mem_map.mp hm
    obtain ⟨hof, htold⟩ := hslot slot hs
    rw [hof.toolName]
    exact htold
  · obtain ⟨tool, ht, hname⟩ := he.known event hm
    rw [← he.slots_eq] at ht
    obtain ⟨slot, hs, rfl⟩ := List.mem_map.mp ht
    exact ⟨_, List.mem_map_of_mem hs, by rw [hname, (hslot slot hs).1.toolName]⟩

def Leaves (p : Workplace) (done : List (Tool × Option Launch)) (s : Stage σ)
    (outcomes : List Outcome) (v : World σ) : Prop :=
  ∃ slots u, p.Runs s ⟨done ++ slots, u⟩ ∧ v.milestones = u.milestones ∧
    outcomes = slots.map (p.outcomeAt v)

lemma Leaves.cons {p : Workplace} {done more : List (Tool × Option Launch)} {tool : Tool}
    {o : Outcome} {s : Stage σ} {u v : World σ} {outcomes : List Outcome}
    (h : p.Leaves (done ++ [(tool, some (.over o))]) ⟨done ++ [(tool, some (.over o))] ++ more, u⟩
      outcomes v) (hr : p.Runs s ⟨done ++ (tool, some (.over o)) :: more, u⟩) :
    p.Leaves done s (o :: outcomes) v := by
  obtain ⟨slots, x, hrest, hm, rfl⟩ := h
  simp only [List.append_assoc, List.singleton_append] at hrest
  exact ⟨(tool, some (.over o)) :: slots, x, hr.trans hrest, hm, rfl⟩

lemma leaves_runInTurn (p : Workplace) (deadline : Option Nat)
    (done : List (Tool × Option Launch)) (rest : List Tool) (w : World σ) :
    p.Leaves done ⟨done ++ (Stage.begin rest w).slots, w⟩ (p.runInTurn deadline rest w).1.outcomes
      (p.runInTurn deadline rest w).2 := by
  induction rest generalizing done w with
  | nil => exact ⟨[], w, .refl, rfl, rfl⟩
  | cons tool rest ih =>
    have ha := p.advance_launch done tool (Stage.begin rest w).slots w
    rcases hl : p.launch tool w with ⟨o | process, v⟩ <;> rw [hl] at ha
    · rw [runInTurn_over hl]
      exact (ih (done ++ [(tool, some (.over o))]) v).cons (.single ha)
    · rcases ht : process.endBefore? deadline with _ | time
      -- The tools behind a late one are not launched, and the log says nothing of its end.
      · rw [runInTurn_late hl ht]
        refine ⟨_, v, .single ha, p.milestones_close process { v with now := _ }, ?_⟩
        rw [List.map_cons, List.map_cons, (isOpen_launch hl).1.symm, Stage.begin, List.map_map]
        rfl
      · rw [runInTurn_ended hl ht]
        have hf := p.advance_finish done tool (Stage.begin rest w).slots v
          (Process.endBefore?_eq_some_iff.mp ht).1
        exact (ih (done ++ [(tool, some (.over (p.finish process time v).1))])
          (p.finish process time v).2).cons (.tail (.single ha) hf)

lemma comesTo_runTogether (p : Workplace) (deadline : Option Nat) (tools : List Tool)
    (w : World σ) :
    p.ComesTo tools w (p.runTogether deadline tools w).1.outcomes
      (p.runTogether deadline tools w).2 := by
  obtain ⟨left, hruns, hleft⟩ := p.runs_due deadline tools w
  have hr : p.runTogether deadline tools w = _ := runTogether_eq
    (Prod.eta (p.launchAll tools w)).symm (Prod.eta (p.finishAll _ (p.launchAll tools w).2)).symm
  rw [hr]
  refine ⟨_, hruns, ?_, List.ext_getElem? fun index => ?_⟩
  · rw [closing]
    split
    · rfl
    · exact p.milestones_closeAll _ { (p.finishAll _ _).2 with now := _ }
  · rw [collect_getElem?, List.getElem?_map, Nat.zero_add]
    have hslot := hleft index
    have hkey := lookup_ending_isSome p deadline (p.launchAll tools w).1 (p.launchAll tools w).2
      index
    rcases ho : (p.finishAll (ending deadline (running 0 (p.launchAll tools w).1))
      (p.launchAll tools w).2).1.lookup index with _ | o <;> rw [ho] at hslot hkey
    · rcases hl : (p.launchAll tools w).1[index]? with _ | launch <;> rw [hl] at hslot
      · rw [Option.map_eq_none_iff.mp hslot]
        rfl
      · obtain ⟨slot, hs, he⟩ := Option.map_eq_some_iff.mp hslot
        rw [hs, ← Prod.eta slot, he]
        cases launch <;> rfl
    · obtain ⟨process, time, hl, _⟩ := hkey.mp rfl
      obtain ⟨slot, hs, he⟩ := Option.map_eq_some_iff.mp hslot
      rw [hl, hs, ← Prod.eta slot, he]
      rfl

lemma comesTo_runTools (p : Workplace) (together : Bool) (deadline : Option Nat)
    (tools : List Tool) (w : World σ) :
    p.ComesTo tools w (p.runTools together deadline tools w).1.outcomes
      (p.runTools together deadline tools w).2 := by
  cases together with
  | true => exact p.comesTo_runTogether deadline tools w
  | false =>
    obtain ⟨slots, u, hr, hm, ho⟩ := p.leaves_runInTurn deadline [] tools w
    exact ⟨⟨slots, u⟩, hr, hm, ho⟩

end Workplace

end Premerge
