import Mathlib.Logic.Relation
import Premerge.Proofs.Run.Alone

/-! Tools may be started and may end in any order. Each has a report of its own, so every order
comes to the same outcomes: to those of the tools that run alone. -/

namespace Premerge

open Premerge.World

variable {σ : Type}

structure Stage (σ : Type) where
  slots : List (Tool × Option Launch)
  world : World σ

namespace Stage

def begin (tools : List Tool) (w : World σ) : Stage σ :=
  ⟨tools.map fun tool => (tool, none), w⟩

lemma map_fst_begin (tools : List Tool) (w : World σ) :
    (begin tools w).slots.map Prod.fst = tools := by
  simp [begin, Function.comp_def]

lemma map_fst_set {slots : List (Tool × Option Launch)} {place : Nat} {tool : Tool}
    {slot : Option Launch} (h : slots[place]? = some (tool, slot)) (left : Option Launch) :
    (slots.set place (tool, left)).map Prod.fst = slots.map Prod.fst := by
  have hplace : (slots.map Prod.fst)[place]? = some tool := by
    rw [List.getElem?_map, h, Option.map_some]
  obtain ⟨hlt, rfl⟩ := List.getElem?_eq_some_iff.mp hplace
  rw [List.map_set]
  exact List.set_getElem_self hlt

def IsOver (s : Stage σ) (outcomes : List Outcome) : Prop :=
  s.slots.map Prod.snd = outcomes.map fun o => some (.over o)

end Stage

namespace Workplace

/-- What can happen next: a tool is launched, a process ends at its time, or the clock shows another
time. -/
inductive Advance (p : Workplace) : Stage σ → Stage σ → Prop
  | launch {s : Stage σ} {place : Nat} {tool : Tool} (h : s.slots[place]? = some (tool, none)) :
      p.Advance s ⟨s.slots.set place (tool, some (p.launch tool s.world).1),
        (p.launch tool s.world).2⟩
  | finish {s : Stage σ} {place time : Nat} {tool : Tool} {process : Process}
      (h : s.slots[place]? = some (tool, some (.running process)))
      (ht : process.end? = some time) :
      p.Advance s ⟨s.slots.set place (tool, some (.over (p.finish process time s.world).1)),
        (p.finish process time s.world).2⟩
  | pass {s : Stage σ} (time : Nat) : p.Advance s ⟨s.slots, { s.world with now := time }⟩

abbrev Runs (p : Workplace) : Stage σ → Stage σ → Prop :=
  Relation.ReflTransGen p.Advance

/-- The tools have reports of their own, and their programs end and depend on nothing that happens
among the reports. -/
structure Independent (p : Workplace) (w : World σ) (tools : List Tool) : Prop
    extends Separate tools where
  startsAlike : ∀ tool ∈ tools, p.StartsAlike w tool
  ends : ∀ tool ∈ tools, p.Ends w tool

/-- How a tool that was begun in the first world stands among the files: nothing has touched the
report of one that waits, a launched one does what was foretold, and a running one has its report. -/
def Fits (p : Workplace) (first : World σ) (files : FileTree) (tool : Tool) :
    Option Launch → Prop
  | none => files.locate (p.rawPath tool) = first.files.locate (p.rawPath tool)
  | some launch => launch.foretold? = (p.launch tool first).1.foretold? ∧
      ∀ process, launch = .running process → process.tool = tool ∧ p.IsOpen files tool

lemma Fits.touches {p : Workplace} {first w v : World σ} {tool other : Tool}
    {slot : Option Launch} (h : p.Fits first w.files other slot) (ht : p.Touches tool w v)
    (hn : '/' ∉ tool.reportName.toList) (ho : '/' ∉ other.reportName.toList)
    (hne : other.reportName ≠ tool.reportName) : p.Fits first v.files other slot := by
  cases slot with
  | none => exact (ht.locate_of_ne hn ho hne).trans h
  | some launch =>
    obtain ⟨hf, hr⟩ := h
    refine ⟨hf, fun process hp => ?_⟩
    obtain ⟨htool, ho⟩ := hr process hp
    exact ⟨htool, ho.keeps ht.keeps⟩

/-- What holds at every stage of a run that begins in the first world. -/
structure Sound (p : Workplace) (first : World σ) (tools : List Tool) (s : Stage σ) : Prop where
  tools : s.slots.map Prod.fst = tools
  alike : p.Alike first s.world
  fits (place : Nat) (tool : Tool) (slot : Option Launch) :
    s.slots[place]? = some (tool, slot) → p.Fits first s.world.files tool slot

lemma sound_begin (p : Workplace) (w : World σ) (tools : List Tool) :
    p.Sound w tools (.begin tools w) := by
  refine ⟨Stage.map_fst_begin tools w, .refl p w, fun place tool slot h => ?_⟩
  simp only [Stage.begin, List.getElem?_map, Option.map_eq_some_iff] at h
  obtain ⟨_, _, he⟩ := h
  cases he
  rfl

namespace Sound

variable {p : Workplace} {first : World σ} {tools : List Tool} {s : Stage σ}

lemma getElem? (h : p.Sound first tools s) {place : Nat} {tool : Tool} {slot : Option Launch}
    (hs : s.slots[place]? = some (tool, slot)) : tools[place]? = some tool := by
  rw [← h.tools, List.getElem?_map, hs, Option.map_some]

lemma set (h : p.Sound first tools s) (hi : p.Independent first tools) {place : Nat}
    {tool : Tool} {slot left : Option Launch} (hs : s.slots[place]? = some (tool, slot))
    {v : World σ} (ht : p.Touches tool s.world v) (hf : p.Fits first v.files tool left) :
    p.Sound first tools ⟨s.slots.set place (tool, left), v⟩ := by
  have hplain := hi.plain tool (List.mem_of_getElem? (h.getElem? hs))
  refine ⟨?_, h.alike.touches ht hplain, fun index other launch hl => ?_⟩
  · exact (Stage.map_fst_set hs left).trans h.tools
  · rw [List.getElem?_set] at hl
    by_cases hp : place = index
    · rw [if_pos hp] at hl
      split at hl
      · cases hl
        exact hf
      · cases hl
    -- The report of another tool has another name, so its slot fits as before.
    · rw [if_neg hp] at hl
      have ho := hi.plain other (List.mem_of_getElem? (h.getElem? hl))
      have hne := hi.reportName_ne (h.getElem? hs) (h.getElem? hl) hp
      exact (h.fits index other launch hl).touches ht hplain ho hne

lemma advance (h : p.Sound first tools s) (hi : p.Independent first tools) {s' : Stage σ}
    (ha : p.Advance s s') : p.Sound first tools s' := by
  cases ha with
  | @launch place tool hs =>
    have hm := List.mem_of_getElem? (h.getElem? hs)
    have ht := (p.touches_launch tool s.world).1
    -- Nothing has touched the report of a tool that waits, so it is launched as in the first world.
    have hl := h.alike.foretold? (hi.plain tool hm) (hi.startsAlike tool hm) (h.fits _ _ _ hs)
    refine h.set hi hs ht ⟨hl, fun process hp => ?_⟩
    obtain ⟨htool, _, ho⟩ := isOpen_launch (v := (p.launch tool s.world).2) (Prod.ext hp rfl)
    exact ⟨htool, ho⟩
  | @finish place time tool process hs ht =>
    obtain ⟨hf, hr⟩ := h.fits _ _ _ hs
    obtain ⟨rfl, ho⟩ := hr process rfl
    refine h.set hi hs (p.touches_finish process time s.world).1 ⟨?_, fun _ hp => by cases hp⟩
    rw [← hf, finish_outcome time ho, Launch.foretold?, Launch.foretold?, ht, Option.map_some]
  | pass time => exact ⟨h.tools, ⟨h.alike.programs, h.alike.environment, h.alike.files⟩, h.fits⟩

lemma runs (h : p.Sound first tools s) (hi : p.Independent first tools) {s' : Stage σ}
    (hr : p.Runs s s') : p.Sound first tools s' := by
  induction hr with
  | refl => exact h
  | tail _ ha ih => exact ih.advance hi ha

lemma outcomes (h : p.Sound first tools s) {outcomes : List Outcome} (ho : s.IsOver outcomes) :
    outcomes.map (fun o => some o.untimed) =
      tools.map fun tool => (p.launch tool first).1.foretold? := by
  apply List.ext_getElem?
  intro place
  have hp := congrArg (fun l => l[place]?) ho
  simp only [List.getElem?_map] at hp
  rw [List.getElem?_map, List.getElem?_map, ← h.tools, List.getElem?_map]
  rcases hs : s.slots[place]? with _ | ⟨tool, slot⟩ <;> rw [hs] at hp
  · rw [Option.map_none, eq_comm, Option.map_eq_none_iff] at hp
    rw [hp]
    rfl
  · rw [Option.map_some, eq_comm, Option.map_eq_some_iff] at hp
    obtain ⟨o, hl, rfl⟩ := hp
    rw [hl]
    exact congrArg some (h.fits place tool _ hs).1

end Sound

end Workplace

end Premerge
