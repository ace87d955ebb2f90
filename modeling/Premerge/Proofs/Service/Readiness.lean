import Mathlib.Data.List.Nodup
import Premerge.Config.Validation
import Premerge.Proofs.Service.Session
import Premerge.Service.Compose

/-! A session begins only when each of its services has come up and has answered that it is ready.
A service is found by its name, so of several entries of one name only the first is asked. -/

namespace Premerge

open Premerge.World

variable {σ : Type}

def Runtime.CanFail (runtime : Runtime σ) (service : Service) (e : Failure) : Prop :=
  ∃ w, (runtime.up service w).1.result? = some (.error e) ∨
    (runtime.check service w).1.result? = some (.error e)

namespace Startup

lemma run_add (runtime : Runtime σ) (interval began limit first more : Nat)
    (attempts : List Attempt) (w : World σ) :
    run runtime interval began limit (first + more) attempts w =
      run runtime interval began limit more (run runtime interval began limit first attempts w).1
        (run runtime interval began limit first attempts w).2 := by
  induction first generalizing attempts w with
  | zero => rw [Nat.zero_add, run]
  | succ first ih =>
    rw [Nat.succ_add]
    rcases hn : next? limit attempts with _ | ⟨place, tick, step⟩
    · cases more <;> simp [run, hn]
    · obtain ⟨a, ha, _⟩ := due_of_next? hn
      simp only [run, hn, ha]
      exact ih _ _

variable (runtime : Runtime σ) (p : Patience) (services : List Service) (w : World σ)

def after (steps : Nat) : List Attempt × World σ :=
  run runtime p.interval w.now (w.now + p.window) steps
    (services.map fun service => ⟨service, .due ⟨w.now, 0⟩ .up⟩) w

def Makes (number : Nat) (service : Service) (step : StartStep) (v : World σ) : Prop :=
  ∃ place tick a, next? (w.now + p.window) (after runtime p services w number).1 =
      some (place, tick, step) ∧
    (after runtime p services w number).1[place]? = some a ∧ a.service = service ∧
    v = { (after runtime p services w number).2 with now := tick.time }

def BringsUp (number : Nat) (service : Service) : Prop :=
  ∃ v, Makes runtime p services w number service .up v ∧
    (runtime.up service (v.note (.upAsked service))).1.result? = some (.ok ())

def FindsReady (number : Nat) (service : Service) : Prop :=
  ∃ v, Makes runtime p services w number service .check v ∧
    (runtime.check service (v.note (.checkAsked service))).1.result? = some (.ok true)

def Readies (steps : Nat) (service : Service) : Prop :=
  ∃ first second, first < second ∧ second < steps ∧
    BringsUp runtime p services w first service ∧ FindsReady runtime p services w second service

def Answered (steps : Nat) (service : Service) : Progress → Prop
  | .due _ .granted | .due _ .check => ∃ first < steps, BringsUp runtime p services w first service
  | .due _ .passed | .settled (.ok ()) => Readies runtime p services w steps service
  | .due _ (.failed e) | .settled (.error e) => runtime.CanFail service e
  | .due _ .up | .stuck => True

variable {runtime p services w} {steps : Nat} {service : Service} {progress : Progress}

lemma Readies.mono {more : Nat} (h : Readies runtime p services w steps service)
    (hle : steps ≤ more) : Readies runtime p services w more service := by
  obtain ⟨first, second, hlt, hs, hup, hready⟩ := h
  exact ⟨first, second, hlt, by omega, hup, hready⟩

lemma Answered.mono {more : Nat} (h : Answered runtime p services w steps service progress)
    (hle : steps ≤ more) : Answered runtime p services w more service progress := by
  rw [Answered.eq_def] at h ⊢
  split at h
  · obtain ⟨first, hs, hup⟩ := h
    exact ⟨first, by omega, hup⟩
  · obtain ⟨first, hs, hup⟩ := h
    exact ⟨first, by omega, hup⟩
  · exact h.mono hle
  · exact h.mono hle
  · exact h
  · exact h
  · trivial
  · trivial

lemma answered_afterUp {tick : Tick} {v : World σ}
    (h : (runtime.up service v).1.result? = some (.ok ()) →
      ∃ first < steps, BringsUp runtime p services w first service) :
    Answered runtime p services w steps service
      (Attempt.afterReply Attempt.afterUp tick (runtime.up service v).1) := by
  rcases Attempt.afterUp_cases tick (runtime.up service v).1 with
    hs | ⟨_, _, ⟨hr, hs⟩ | ⟨_, hr, hs⟩⟩ <;> rw [hs]
  · trivial
  · exact h hr
  · exact ⟨v, .inl hr⟩

lemma answered_afterCheck {interval : Nat} {tick : Tick} {v : World σ}
    (hup : ∃ first < steps, BringsUp runtime p services w first service)
    (h : (runtime.check service v).1.result? = some (.ok true) →
      Readies runtime p services w steps service) :
    Answered runtime p services w steps service
      (Attempt.afterReply (Attempt.afterCheck interval) tick (runtime.check service v).1) := by
  rcases Attempt.afterCheck_cases interval tick (runtime.check service v).1 with
    hs | ⟨_, _, ⟨hr, hs⟩ | ⟨_, hs⟩ | ⟨_, hr, hs⟩⟩ <;> rw [hs]
  · trivial
  · exact h hr
  · exact hup
  · exact ⟨v, .inr hr⟩

variable (runtime p services w steps) in
lemma after_succ :
    (next? (w.now + p.window) (after runtime p services w steps).1 = none ∧
        after runtime p services w (steps + 1) = after runtime p services w steps) ∨
      ∃ place tick step a, next? (w.now + p.window) (after runtime p services w steps).1 =
          some (place, tick, step) ∧
        (after runtime p services w steps).1[place]? = some a ∧ a.progress = .due tick step ∧
        after runtime p services w (steps + 1) =
          let made := Attempt.make runtime p.interval w.now a.service tick step
            (after runtime p services w steps).2
          ((after runtime p services w steps).1.set place { a with progress := made.1 }, made.2) := by
  have hadd : after runtime p services w (steps + 1) =
      run runtime p.interval w.now (w.now + p.window) 1 (after runtime p services w steps).1
        (after runtime p services w steps).2 :=
    run_add runtime _ _ _ steps 1 _ w
  rcases hn : next? (w.now + p.window) (after runtime p services w steps).1 with
    _ | ⟨place, tick, step⟩
  · left
    exact ⟨rfl, by simp [hadd, run, hn]⟩
  · right
    obtain ⟨a, ha, hd⟩ := due_of_next? hn
    exact ⟨place, tick, step, a, rfl, ha, hd, by simp [hadd, run, hn, ha]⟩

lemma Answered.make {tick : Tick} {step : StartStep}
    (h : Answered runtime p services w steps service (.due tick step))
    (hm : Makes runtime p services w steps service step
      { (after runtime p services w steps).2 with now := tick.time }) :
    Answered runtime p services w (steps + 1) service
      (Attempt.make runtime p.interval w.now service tick step
        (after runtime p services w steps).2).1 := by
  cases step with
  | up => exact answered_afterUp fun hr => ⟨steps, by omega, _, hm, hr⟩
  | granted => exact h.mono (by omega)
  | check =>
    obtain ⟨first, hs, hup⟩ := h
    exact answered_afterCheck ⟨first, by omega, hup⟩ fun hr =>
      ⟨first, steps, hs, by omega, hup, _, hm, hr⟩
  | passed => exact Readies.mono h (by omega)
  | failed e => exact h

lemma answered_after (steps : Nat) : ∀ a ∈ (after runtime p services w steps).1,
    Answered runtime p services w steps a.service a.progress := by
  induction steps with
  | zero =>
    intro a hm
    obtain ⟨service, _, rfl⟩ := List.mem_map.mp hm
    trivial
  | succ steps ih =>
    rcases after_succ runtime p services w steps with
      ⟨_, he⟩ | ⟨place, tick, step, a, hn, ha, hd, he⟩
    · rw [he]
      exact fun a hm => (ih a hm).mono (by omega)
    · rw [he]
      have hmade := (hd ▸ ih a (List.mem_of_getElem? ha)).make ⟨place, tick, a, hn, ha, rfl, rfl⟩
      intro other hm
      rcases List.mem_or_eq_of_mem_set hm with hm | rfl
      · exact (ih other hm).mono (by omega)
      · exact hmade

variable (runtime p services w) in
lemma services_after (steps : Nat) :
    (after runtime p services w steps).1.map Attempt.service = services :=
  ((attempted_begin services ⟨w.now, 0⟩ w).run runtime p.interval w.now (w.now + p.window)
    steps).services

lemma mem_of_makes {number : Nat} {step : StartStep} {v : World σ}
    (h : Makes runtime p services w number service step v) : service ∈ services := by
  obtain ⟨place, tick, a, _, ha, rfl, _⟩ := h
  exact services_after runtime p services w number ▸
    List.mem_map_of_mem (List.mem_of_getElem? ha)

lemma mem_of_readies (h : Readies runtime p services w steps service) : service ∈ services := by
  obtain ⟨_, _, _, _, ⟨_, hm, _⟩, _⟩ := h
  exact mem_of_makes hm

variable (runtime p services w) in
lemma all_world : ∃ now, (all runtime p services w).2 =
    { (after runtime p services w (mostSteps w.checksAtOnce p services)).2 with now } := by
  unfold all
  dsimp only
  split
  · exact ⟨_, rfl⟩
  · exact ⟨w.now + p.window, rfl⟩

lemma settled_of_all (h : failure? (all runtime p services w).1 = none)
    (hm : service ∈ services) :
    ∃ a ∈ (after runtime p services w (mostSteps w.checksAtOnce p services)).1,
      a.service = service ∧ a.progress = .settled (.ok ()) := by
  have hs := services_after runtime p services w (mostSteps w.checksAtOnce p services)
  obtain ⟨a, ha, rfl⟩ := List.mem_map.mp (hs.symm ▸ hm)
  have hok : a.result p.window = .ok () :=
    eq_ok_of_failure?_eq_none h _ (List.mem_map_of_mem ha)
  rw [Attempt.result] at hok
  split at hok
  next hp => exact ⟨a, ha, rfl, by rw [hp, hok]⟩
  · cases hok

lemma readies_of_all (h : failure? (all runtime p services w).1 = none) :
    ∀ service ∈ services,
      Readies runtime p services w (mostSteps w.checksAtOnce p services) service := by
  intro service hm
  obtain ⟨a, ha, rfl, hp⟩ := settled_of_all h hm
  have hanswered := answered_after (mostSteps w.checksAtOnce p services) a ha
  rw [hp] at hanswered
  exact hanswered

lemma failed_all {e : Failure} (h : .error e ∈ (all runtime p services w).1) :
    ∃ service ∈ services,
      e = .serviceNotReady service.name (p.window / 1000) ∨ runtime.CanFail service e := by
  obtain ⟨a, ha, he⟩ := List.mem_map.mp h
  have hanswered := answered_after (mostSteps w.checksAtOnce p services) a ha
  have hm : a.service ∈ services :=
    services_after runtime p services w (mostSteps w.checksAtOnce p services) ▸ List.mem_map_of_mem ha
  refine ⟨a.service, hm, ?_⟩
  rw [Attempt.result] at he
  split at he
  next hp =>
    rw [hp, he] at hanswered
    exact .inr hanswered
  · exact .inl (Except.error.inj he).symm

end Startup

lemma Session.mem_findAll {known services : List Service} {names : List String}
    (h : findAll known names = .ok services) {service : Service} :
    service ∈ services ↔ ∃ name ∈ names, known.find? (·.name == name) = some service := by
  induction names generalizing services with
  | nil =>
    cases h
    simp
  | cons name rest ih =>
    rw [findAll] at h
    split at h
    · cases h
    next first hf =>
      split at h
      next others ho =>
        cases h
        simp [ih ho, hf, eq_comm]
      · cases h

/-- The first entry of its name, which stands for all of them. -/
def ServicesConfig.IsInForce (c : ServicesConfig) (service : Service) : Prop :=
  c.required.find? (·.name == service.name) = some service

lemma ServicesConfig.isInForce_of_nodup {c : ServicesConfig} (h : c.names.Nodup)
    {service : Service} (hm : service ∈ c.required) : c.IsInForce service :=
  (Data.find?_eq_some_iff_of_nodup h).mpr ⟨hm, rfl⟩

lemma ServicesConfig.mem_of_findAll {c : ServicesConfig} {services : List Service}
    (h : Session.findAll c.required c.names = .ok services) {service : Service} :
    service ∈ services ↔ service ∈ c.required ∧ c.IsInForce service := by
  rw [Session.mem_findAll h]
  constructor
  · rintro ⟨name, _, hf⟩
    have hn : service.name = name := by simpa using List.find?_some hf
    rw [← hn] at hf
    exact ⟨List.mem_of_find?_eq_some hf, hf⟩
  · rintro ⟨hm, hf⟩
    exact ⟨service.name, List.mem_map_of_mem hm, hf⟩

/-- If there is a session, the services that are in force have come up and have been found ready by
their own probes. No other entry is asked, so all are ready if no two have the same name. -/
theorem Config.readied_of_start {c : Config} {runtime : Runtime σ} {p : Patience} {w v : World σ}
    {session : Session}
    (h : (Session.start runtime p c.services.required c.services.names).perform w =
      (.ok session, v)) :
    ∃ services, Session.findAll c.services.required c.services.names = .ok services ∧
      (∀ service ∈ c.services.required,
        (c.services.IsInForce service →
          Startup.Readies runtime p services w (Startup.mostSteps w.checksAtOnce p services) service) ∧
        (¬c.services.IsInForce service →
          ∀ number step u, ¬Startup.Makes runtime p services w number service step u)) ∧
      (c.services.names.Nodup → ∀ service ∈ c.services.required,
        Startup.Readies runtime p services w (Startup.mostSteps w.checksAtOnce p services) service) := by
  have hknown : ∀ name ∈ c.services.names, name ∈ c.services.required.map Service.name :=
    fun _ hm => hm
  obtain ⟨services, hf⟩ := Session.findAll_of_subset hknown
  rw [Session.perform_start runtime p hf] at h
  rcases hfail : Startup.failure? (Startup.all runtime p services w).1 with _ | e <;>
    rw [hfail] at h
  · have hready := Startup.readies_of_all hfail
    have hforce : ∀ service ∈ c.services.required, c.services.IsInForce service →
        Startup.Readies runtime p services w (Startup.mostSteps w.checksAtOnce p services) service :=
      fun service hm hi => hready service ((ServicesConfig.mem_of_findAll hf).mpr ⟨hm, hi⟩)
    refine ⟨services, hf, fun service hm => ⟨hforce service hm, fun hn number step u hu => ?_⟩,
      fun hnodup service hm => hforce service hm (ServicesConfig.isInForce_of_nodup hnodup hm)⟩
    exact hn ((ServicesConfig.mem_of_findAll hf).mp (Startup.mem_of_makes hu)).2
  · cases h

def portPrograms : Programs := fun call =>
  if call.name = "docker" then
    some ⟨[], .exit (if call.arguments.contains "5433" then 1 else 0), 0⟩
  else none

def portsConfig (second : String) : Config :=
  { Config.standard with
    services := { ServicesConfig.standard with
      startupTimeoutSecs := 2
      required := [⟨"db", ["pg_isready", "-p", "5432"]⟩, ⟨second, ["pg_isready", "-p", "5433"]⟩] } }

def portsStart (second : String) : Except Failure Session × World Unit :=
  (Session.start (Composition.runtime ⟨none, none, none⟩) ⟨2000, 1000⟩
    (portsConfig second).services.required (portsConfig second).services.names).perform
      (World.fresh portPrograms)

/-- In an accepted configuration two services can have one name. Then a session begins although the
second one has not been asked for, and would not have been ready. -/
theorem unready_namesake :
    (portsConfig "db").validate = .ok () ∧
    ∃ v services, portsStart "db" = (.ok ⟨["db", "db"]⟩, v) ∧
      Session.findAll (portsConfig "db").services.required (portsConfig "db").services.names =
        .ok services ∧
      ¬Startup.Readies (Composition.runtime ⟨none, none, none⟩) ⟨2000, 1000⟩ services
        (World.fresh portPrograms) (Startup.mostSteps 1 ⟨2000, 1000⟩ services)
        ⟨"db", ["pg_isready", "-p", "5433"]⟩ ∧
      ((Composition.runtime ⟨none, none, none⟩).check ⟨"db", ["pg_isready", "-p", "5433"]⟩
        v).1.result? = some (.ok false) := by
  have hstart : (portsStart "db").1 = .ok ⟨["db", "db"]⟩ ∧
      ((Composition.runtime ⟨none, none, none⟩).check ⟨"db", ["pg_isready", "-p", "5433"]⟩
        (portsStart "db").2).1.result? = some (.ok false) := by
    decide +kernel
  rcases hs : portsStart "db" with ⟨result, v⟩
  rw [hs] at hstart
  obtain ⟨rfl, hcheck⟩ := hstart
  refine ⟨rfl, v, [⟨"db", ["pg_isready", "-p", "5432"]⟩, ⟨"db", ["pg_isready", "-p", "5432"]⟩], rfl,
    rfl, fun h => ?_, hcheck⟩
  exact absurd (Startup.mem_of_readies h) (by decide)

theorem readied_of_start_namesake :
    ∃ session v services, portsStart "db" = (.ok session, v) ∧
      (portsConfig "db").services.IsInForce ⟨"db", ["pg_isready", "-p", "5432"]⟩ ∧
      Startup.Readies (Composition.runtime ⟨none, none, none⟩) ⟨2000, 1000⟩ services
        (World.fresh portPrograms) (Startup.mostSteps 1 ⟨2000, 1000⟩ services)
        ⟨"db", ["pg_isready", "-p", "5432"]⟩ := by
  have hok : (portsStart "db").1.isOk = true := by decide +kernel
  rcases hs : portsStart "db" with ⟨e | session, v⟩ <;> rw [hs] at hok
  · cases hok
  obtain ⟨services, _, hall, _⟩ := Config.readied_of_start (c := portsConfig "db") hs
  have hforce : (portsConfig "db").services.IsInForce ⟨"db", ["pg_isready", "-p", "5432"]⟩ := rfl
  exact ⟨session, v, services, rfl, hforce, (hall _ (by decide)).1 hforce⟩

end Premerge
