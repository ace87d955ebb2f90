import Premerge.Proofs.Service.Startup

namespace Premerge

open Premerge.World

variable {σ α β : Type}

def World.TakenDown (runtime : Runtime σ) (names : List String) (w v : World σ) : Prop :=
  ((Session.takeDown runtime names).perform w).2.ExtendsBeside (fun what => what.isQuiet = true) v

lemma World.TakenDown.history {runtime : Runtime σ} {names : List String} {w v : World σ}
    (h : w.TakenDown runtime names v) :
    ∃ after, v.history = w.history ++ ⟨w.now, .downAsked names⟩ :: after ∧
      ∀ moment ∈ after, moment.what.isQuiet = true := by
  obtain ⟨after, hh, hr⟩ := (runtime.down_notes names (w.note (.downAsked names))).history
  obtain ⟨more, hm, hq⟩ := ExtendsBeside.history h
  refine ⟨after ++ more, ?_, fun moment hmem => ?_⟩
  · rw [hm, Session.takeDown, Action.perform_bind, Action.perform_modify, hh, history_note,
      List.append_assoc, List.append_assoc, List.singleton_append]
  · rcases List.mem_append.mp hmem with hmem | hmem
    · exact Happening.isQuiet_of_isOfRuntime (hr moment hmem)
    · exact hq moment hmem

namespace Action

def TakesDown (runtime : Runtime σ) (names : List String) (a : Action σ α) : Prop :=
  ∀ w : World σ, w.TakenDown runtime names (a.perform w).2

namespace TakesDown

variable {runtime : Runtime σ} {names : List String} {a : Action σ α}

lemma attempt (h : a.TakesDown runtime names) : (attempt a).TakesDown runtime names :=
  h

lemma bind {f : α → Action σ β} (h : a.TakesDown runtime names) (hf : ∀ x, (f x).IsQuiet) :
    (a >>= f).TakesDown runtime names := by
  intro w
  have hw := h w
  rw [perform_bind]
  rcases hp : a.perform w with ⟨e | x, v⟩ <;> rw [hp] at hw
  · exact hw
  · exact World.ExtendsBeside.trans hw (hf x v)

end TakesDown

end Action

namespace Session

lemma takesDown_takeDown (runtime : Runtime σ) (names : List String) :
    (takeDown runtime names).TakesDown runtime names :=
  fun _ => World.ExtendsBeside.refl _ _

lemma takesDown_clearUp (runtime : Runtime σ) (names : List String) :
    (clearUp runtime names).TakesDown runtime names := by
  refine (takesDown_takeDown runtime names).attempt.bind fun result => ?_
  cases result with
  | ok _ => exact Action.isQuiet_log _
  | error e => exact (Action.isQuiet_log _).bind fun _ => Action.isQuiet_log _

lemma takesDown_stop (runtime : Runtime σ) (s : Session) :
    (s.stop runtime).TakesDown runtime s.names :=
  (takesDown_takeDown runtime s.names).attempt.bind fun result =>
    (Action.isQuiet_log _).bind fun _ => Action.isQuiet_ofExcept result

lemma names_of_findAll {known : List Service} {names : List String} {services : List Service}
    (h : findAll known names = .ok services) : services.map Service.name = names := by
  induction names generalizing services with
  | nil =>
    cases h
    rfl
  | cons name rest ih =>
    unfold findAll at h
    split at h
    · cases h
    next service hs =>
      split at h
      next others ho =>
        cases h
        have hn : (service.name == name) = true :=
          List.find?_some (p := fun (service : Service) => service.name == name) hs
        rw [List.map_cons, ih ho, beq_iff_eq.mp hn]
      · cases h

lemma findAll_of_subset {known : List Service} {names : List String}
    (h : ∀ name ∈ names, name ∈ known.map Service.name) :
    ∃ services, findAll known names = .ok services := by
  induction names with
  | nil => exact ⟨[], rfl⟩
  | cons name rest ih =>
    obtain ⟨others, ho⟩ := ih fun other hm => h other (.tail _ hm)
    obtain ⟨service, hm, hn⟩ := List.mem_map.mp (h name (.head _))
    have hs : (known.find? (·.name == name)).isSome := by
      rw [List.find?_isSome]
      exact ⟨service, hm, beq_iff_eq.mpr hn⟩
    obtain ⟨found, hf⟩ := Option.isSome_iff_exists.mp hs
    exact ⟨found :: others, by simp only [findAll, hf, ho]⟩

lemma perform_clearUp (runtime : Runtime σ) (names : List String) (w : World σ) :
    (clearUp runtime names).perform w = (.ok (), ((clearUp runtime names).perform w).2) := by
  rw [clearUp, Action.perform_bind, Action.perform_attempt]
  rcases (takeDown runtime names).perform w with ⟨_ | _, v⟩ <;> rfl

lemma perform_start (runtime : Runtime σ) (p : Patience) {known services : List Service}
    {names : List String} (hf : findAll known names = .ok services) (w : World σ) :
    (start runtime p known names).perform w =
      match Startup.failure? (Startup.all runtime p services w).1 with
      | none => (.ok ⟨names⟩, (Startup.all runtime p services w).2)
      | some e =>
        (.error e, ((clearUp runtime names).perform (Startup.all runtime p services w).2).2) := by
  unfold start
  rw [Action.perform_bind, Action.perform_ofExcept, hf]
  dsimp only
  rw [Action.perform_bind, Action.perform_get]
  dsimp only
  rw [Action.perform_bind, Action.perform_set]
  dsimp only
  rcases Startup.failure? (Startup.all runtime p services w).1 with _ | e
  · rfl
  · dsimp only
    rw [Action.perform_bind, perform_clearUp]
    rfl

lemma all_history (runtime : Runtime σ) (p : Patience) {known services : List Service}
    {names : List String} (hf : findAll known names = .ok services) (w : World σ) :
    ∃ before, (Startup.all runtime p services w).2.history = w.history ++ before ∧
      (∀ moment ∈ before, moment.what.isOfStart = true) ∧
      (Startup.failure? (Startup.all runtime p services w).1 = none →
        ((passedServices before).map Service.name).Perm names) := by
  obtain ⟨attempts, v, ha, hr, hv⟩ := Startup.attempted_all runtime p services w
  obtain ⟨before, hh, hs, hp⟩ := ha.history
  refine ⟨before, hv.trans hh, hs, fun hnone => ?_⟩
  rw [hr] at hnone
  have hready : ∀ a ∈ attempts, a.isReady = true := fun a hm =>
    Attempt.isReady_of_result
      (Startup.eq_ok_of_failure?_eq_none hnone _ (List.mem_map_of_mem hm))
  rw [List.filter_eq_self.mpr hready, ha.services] at hp
  rw [← names_of_findAll hf]
  exact hp.map _

lemma start_history (runtime : Runtime σ) (p : Patience) {known : List Service}
    {names : List String} (hk : ∀ name ∈ names, name ∈ known.map Service.name) (w : World σ) :
    ∃ before after, ((start runtime p known names).perform w).2.history =
        w.history ++ before ++ after ∧
      (∀ moment ∈ before, moment.what.isOfStart = true) ∧
      match ((start runtime p known names).perform w).1 with
      | .ok session => session.names = names ∧ after = [] ∧
          ((passedServices before).map Service.name).Perm names
      | .error _ => ∃ time rest, after = ⟨time, .downAsked names⟩ :: rest ∧
          ∀ moment ∈ rest, moment.what.isQuiet = true := by
  obtain ⟨services, hf⟩ := findAll_of_subset hk
  obtain ⟨before, hh, hs, hp⟩ := all_history runtime p hf w
  rw [perform_start runtime p hf]
  rcases hfail : Startup.failure? (Startup.all runtime p services w).1 with _ | e
  · exact ⟨before, [], by rw [List.append_nil]; exact hh, hs, rfl, rfl, hp hfail⟩
  · obtain ⟨rest, hd, hq⟩ :=
      (takesDown_clearUp runtime names (Startup.all runtime p services w).2).history
    rw [hh] at hd
    exact ⟨before, _, hd, hs, _, rest, rfl, hq⟩

end Session

end Premerge
