import Mathlib.Tactic.Lemma
import Premerge.World.Basic

/-! Most of what a job does only logs events and calls programs, and only few of these events are
milestones, by which it can be followed. -/

namespace Premerge

open Premerge.World

variable {σ α β : Type}

def Happening.isQuiet : Happening → Bool
  | .logged _ | .called _ => true
  | _ => false

/-- Whether the event tells by itself that the job got to some point, or what came of a tool. -/
def Event.isMilestone : Event → Bool
  | .jobStarted _ _ _ | .toolSkipped _ _ | .toolFinished _ _ _ _ | .toolErrored _ _
  | .servicesStopped _ | .jobFinished _ _ _ => true
  | _ => false

def Happening.milestone? : Happening → Option Event
  | .logged event => if event.isMilestone then some event else none
  | _ => none

def Happening.isAside : Happening → Bool
  | .logged event => !event.isMilestone
  | .called _ => true
  | _ => false

def Happening.isOfTools : Happening → Bool
  | .logged _ | .called _ | .toolStarted _ | .toolEnded _ => true
  | _ => false

lemma Happening.isOfTools_of_isQuiet {what : Happening} (h : what.isQuiet = true) :
    what.isOfTools = true := by
  cases what <;> first | rfl | cases h

lemma Happening.isQuiet_of_isAside {what : Happening} (h : what.isAside = true) :
    what.isQuiet = true := by
  cases what <;> first | rfl | cases h

lemma Happening.milestone?_of_isAside {what : Happening} (h : what.isAside = true) :
    what.milestone? = none := by
  cases what with
  | logged event => simpa [isAside, milestone?] using h
  | _ => rfl

lemma Happening.isAside_of_isOfRuntime {what : Happening} (h : what.isOfRuntime = true) :
    what.isAside = true := by
  unfold isOfRuntime at h
  split at h
  · rfl
  · rfl
  · cases h

lemma Happening.isQuiet_of_isOfRuntime {what : Happening} (h : what.isOfRuntime = true) :
    what.isQuiet = true :=
  isQuiet_of_isAside (isAside_of_isOfRuntime h)

namespace World

lemma Extends.mono {allowed other : Happening → Prop} {w v : World σ} (h : w.Extends allowed v)
    (ho : ∀ what, allowed what → other what) : w.Extends other v := by
  obtain ⟨news, hp, hn⟩ := h
  exact ⟨news, hp, fun moment hm => ho _ (hn moment hm)⟩

lemma history_note (w : World σ) (what : Happening) :
    (w.note what).history = w.history ++ [⟨w.now, what⟩] := by
  simp [history, note]

lemma Extends.history {allowed : Happening → Prop} {w v : World σ} (h : w.Extends allowed v) :
    ∃ news, v.history = w.history ++ news ∧ ∀ moment ∈ news, allowed moment.what := by
  obtain ⟨news, hp, hn⟩ := h
  refine ⟨news.reverse, ?_, fun moment hm => hn moment (List.mem_reverse.mp hm)⟩
  rw [World.history, World.history, hp, List.reverse_append]

def milestones (w : World σ) : List Event :=
  w.history.filterMap (·.what.milestone?)

lemma milestones_note (w : World σ) (what : Happening) :
    (w.note what).milestones = w.milestones ++ what.milestone?.toList := by
  rw [milestones, history_note, List.filterMap_append]
  cases h : what.milestone? <;> simp [milestones, h]

lemma milestones_log (w : World σ) (event : Event) (h : event.isMilestone = true) :
    (w.log event).milestones = w.milestones ++ [event] := by
  simp [log, milestones_note, Happening.milestone?, h]

lemma milestones_note_of_none (w : World σ) {what : Happening} (h : what.milestone? = none) :
    (w.note what).milestones = w.milestones := by
  rw [milestones_note, h]
  exact List.append_nil _

lemma Extends.milestones {w v : World σ} (h : w.Extends (fun what => what.milestone? = none) v) :
    v.milestones = w.milestones := by
  obtain ⟨news, hh, hn⟩ := h.history
  rw [World.milestones, hh, List.filterMap_append, List.filterMap_eq_nil_iff.mpr hn]
  exact List.append_nil _

lemma milestones_start (w : World σ) (c : Command) : (w.start c).2.milestones = w.milestones := by
  have hs : w.Extends (fun what => what.milestone? = none) (w.start c).2 := w.extends_start c rfl
  exact hs.milestones

end World

/-- Nothing has been forgotten, what is new is allowed, and the services are as they were. -/
structure World.ExtendsBeside (allowed : Happening → Prop) (w v : World σ) : Prop where
  past : w.Extends allowed v
  services : v.services = w.services

namespace World.ExtendsBeside

variable {allowed other : Happening → Prop} {w v u : World σ}

lemma refl (allowed : Happening → Prop) (w : World σ) : w.ExtendsBeside allowed w :=
  ⟨.refl _ w, rfl⟩

lemma trans (h : w.ExtendsBeside allowed v) (h' : v.ExtendsBeside allowed u) :
    w.ExtendsBeside allowed u :=
  ⟨h.past.trans h'.past, h'.services.trans h.services⟩

lemma note (h : w.ExtendsBeside allowed v) {what : Happening} (hw : allowed what) :
    w.ExtendsBeside allowed (v.note what) :=
  ⟨h.past.trans (v.extends_note hw), h.services⟩

lemma of_same (hp : v.past = w.past) (hs : v.services = w.services) :
    w.ExtendsBeside allowed v :=
  ⟨.of_past hp, hs⟩

lemma start (w : World σ) (c : Command) (h : allowed (.called c.words)) :
    w.ExtendsBeside allowed (w.start c).2 := by
  refine ⟨w.extends_start c h, ?_⟩
  unfold World.start
  split <;> rfl

lemma mono (h : w.ExtendsBeside allowed v) (ho : ∀ what, allowed what → other what) :
    w.ExtendsBeside other v :=
  ⟨h.past.mono ho, h.services⟩

lemma history (h : w.ExtendsBeside allowed v) :
    ∃ news, v.history = w.history ++ news ∧ ∀ moment ∈ news, allowed moment.what :=
  h.past.history

end World.ExtendsBeside

namespace Action

def NotesBeside (allowed : Happening → Prop) (a : Action σ α) : Prop :=
  ∀ w : World σ, w.ExtendsBeside allowed (a.perform w).2

lemma NotesBeside.bind {allowed : Happening → Prop} {a : Action σ α} {f : α → Action σ β}
    (h : a.NotesBeside allowed) (hf : ∀ x, (f x).NotesBeside allowed) :
    (a >>= f).NotesBeside allowed := by
  intro w
  have hw := h w
  rw [perform_bind]
  rcases hp : a.perform w with ⟨x | x, v⟩ <;> rw [hp] at hw
  · exact hw
  · exact hw.trans (hf x v)

def IsQuiet (a : Action σ α) : Prop :=
  a.NotesBeside fun what => what.isQuiet = true

def IsAside (a : Action σ α) : Prop :=
  a.NotesBeside fun what => what.isAside = true

lemma IsQuiet.bind {a : Action σ α} {f : α → Action σ β} (h : a.IsQuiet)
    (hf : ∀ x, (f x).IsQuiet) : (a >>= f).IsQuiet :=
  NotesBeside.bind h hf

lemma IsAside.bind {a : Action σ α} {f : α → Action σ β} (h : a.IsAside)
    (hf : ∀ x, (f x).IsAside) : (a >>= f).IsAside :=
  NotesBeside.bind h hf

lemma IsAside.isQuiet {a : Action σ α} (h : a.IsAside) : a.IsQuiet :=
  fun w => (h w).mono fun _ => Happening.isQuiet_of_isAside

lemma IsAside.milestones {a : Action σ α} (h : a.IsAside) (w : World σ) :
    (a.perform w).2.milestones = w.milestones :=
  World.Extends.milestones ((h w).past.mono fun _ => Happening.milestone?_of_isAside)

lemma isAside_pure (x : α) : (pure x : Action σ α).IsAside :=
  fun w => .refl _ w

lemma isAside_throw (e : Failure) : (throw e : Action σ α).IsAside :=
  fun w => .refl _ w

lemma isAside_get : (get : Action σ (World σ)).IsAside :=
  fun w => .refl _ w

lemma isAside_log {event : Event} (h : event.isMilestone = false) :
    (log event : Action σ Unit).IsAside :=
  fun w => (World.ExtendsBeside.refl _ w).note (by simpa [Happening.isAside] using h)

lemma isAside_draw : (draw : Action σ Nat).IsAside :=
  fun _ => .of_same rfl rfl

lemma isAside_ofExcept (result : Except Failure α) : (ofExcept result : Action σ α).IsAside := by
  intro w
  rw [perform_ofExcept]
  exact .refl _ w

lemma isAside_changeFiles (fault : SystemError → Failure)
    (change : FileTree → Except SystemError FileTree) :
    (changeFiles fault change : Action σ Unit).IsAside := by
  intro w
  rw [changeFiles, perform_bind, perform_get]
  dsimp only
  split
  · exact .refl _ w
  · exact .of_same rfl rfl

lemma isAside_runCommand (fault : SystemError → Failure) (c : Command) :
    (runCommand fault c : Action σ Behaviour).IsAside := by
  intro w
  have hs : w.ExtendsBeside (fun what => what.isAside = true) (w.start c).2 := .start w c rfl
  rw [runCommand, perform_bind, perform_get]
  dsimp only
  rcases he : w.start c with ⟨e | behaviour, v⟩ <;> rw [he] at hs
  · exact .refl _ w
  · exact hs.trans (.of_same rfl rfl)

lemma isQuiet_pure (x : α) : (pure x : Action σ α).IsQuiet :=
  (isAside_pure x).isQuiet

lemma isQuiet_log (event : Event) : (log event : Action σ Unit).IsQuiet :=
  fun w => (World.ExtendsBeside.refl _ w).note rfl

lemma isQuiet_ofExcept (result : Except Failure α) : (ofExcept result : Action σ α).IsQuiet :=
  (isAside_ofExcept result).isQuiet

end Action

end Premerge
