import Premerge.Proofs.Service.Readiness
import Premerge.Proofs.Service.Window

/-! Of the failures of a start one is reported. Services come to their results in any order, but which
failure it is depends on the order alone in which the services were asked for. -/

namespace Premerge

open Premerge.World

variable {σ : Type}

def Failure.isTimeout : Failure → Bool
  | .serviceNotReady _ _ => true
  | _ => false

namespace Startup

def firstFailure? (p : Failure → Bool) (results : List (Except Failure Unit)) : Option Failure :=
  results.findSome? fun
    | .ok () => none
    | .error e => if p e then some e else none

@[simp] lemma firstFailure?_nil (p : Failure → Bool) : firstFailure? p [] = none := rfl

@[simp] lemma firstFailure?_ok (p : Failure → Bool) (x : Unit)
    (rest : List (Except Failure Unit)) :
    firstFailure? p (.ok x :: rest) = firstFailure? p rest := rfl

@[simp] lemma firstFailure?_error (p : Failure → Bool) (e : Failure)
    (rest : List (Except Failure Unit)) :
    firstFailure? p (.error e :: rest) = if p e then some e else firstFailure? p rest := by
  cases hp : p e <;> simp [firstFailure?, hp]

lemma firstFailure?_eq_some_iff {p : Failure → Bool} {results : List (Except Failure Unit)}
    {e : Failure} : firstFailure? p results = some e ↔
      ∃ before after, results = before ++ .error e :: after ∧ p e = true ∧
        ∀ other, .error other ∈ before → p other = false := by
  rw [firstFailure?, List.findSome?_eq_some_iff]
  constructor
  · rintro ⟨before, result, after, rfl, hr, hb⟩
    rcases result with failure | _
    · have hp : p failure = true ∧ failure = e := by simpa using hr
      obtain ⟨hp, rfl⟩ := hp
      exact ⟨before, after, rfl, hp, fun other hm => by simpa using hb _ hm⟩
    · cases hr
  · rintro ⟨before, after, rfl, hp, hb⟩
    refine ⟨before, _, after, rfl, if_pos hp, fun result hm => ?_⟩
    rcases result with failure | _
    · simp [hb failure hm]
    · rfl

lemma firstFailure?_eq_none_iff {p : Failure → Bool} {results : List (Except Failure Unit)} :
    firstFailure? p results = none ↔ ∀ e, .error e ∈ results → p e = false := by
  induction results with
  | nil => simp
  | cons result rest ih =>
    rcases result with failure | _
    · by_cases hp : p failure = true
      · simp [hp]
      · simp [hp, ih]
    · simp [ih]

lemma graver_some (first e : Failure) : graver (some first) e =
    some (if first.isTimeout then first else if e.isTimeout then e else first) := by
  cases first <;> cases e <;> rfl

lemma foldl_graver (first : Option Failure) (results : List (Except Failure Unit)) :
    results.foldl (fun first result =>
      match result with
      | .ok () => first
      | .error e => graver first e) first =
      if first.any Failure.isTimeout then first
      else (firstFailure? Failure.isTimeout results).or
        (first.or (firstFailure? (fun _ => true) results)) := by
  induction results generalizing first with
  | nil => rcases first with _ | e <;> simp
  | cons result rest ih =>
    rw [List.foldl_cons, ih]
    rcases result with e | _
    · rcases first with _ | first
      · cases he : e.isTimeout <;> simp [graver, he]
      · cases hf : first.isTimeout <;> cases he : e.isTimeout <;> simp [graver_some, hf, he]
    · simp

lemma failure?_eq (results : List (Except Failure Unit)) :
    failure? results = (firstFailure? Failure.isTimeout results).or
      (firstFailure? (fun _ => true) results) :=
  foldl_graver none results

/-- The failure that is to be reported: the first timeout, or the first failure if there is no
timeout. -/
def IsReported (results : List (Except Failure Unit)) (e : Failure) : Prop :=
  (∃ before after, results = before ++ .error e :: after ∧ e.isTimeout = true ∧
    ∀ other, .error other ∈ before → other.isTimeout = false) ∨
  (∀ other, .error other ∈ results → other.isTimeout = false) ∧
    ∃ before after, results = before ++ .error e :: after ∧ ∀ result ∈ before, result = .ok ()

lemma failure?_eq_some_iff {results : List (Except Failure Unit)} {e : Failure} :
    failure? results = some e ↔ IsReported results e := by
  have hok {before : List (Except Failure Unit)} :
      (∀ other, .error other ∈ before → true = false) ↔ ∀ result ∈ before, result = .ok () := by
    constructor
    · intro h result hm
      rcases result with other | _
      · cases h other hm
      · rfl
    · intro h other hm
      cases h _ hm
  rw [failure?_eq, Option.or_eq_some_iff, firstFailure?_eq_some_iff, firstFailure?_eq_none_iff,
    firstFailure?_eq_some_iff]
  simp only [hok, true_and, IsReported]

lemma failure?_eq_none_iff {results : List (Except Failure Unit)} :
    failure? results = none ↔ ∀ result ∈ results, result = .ok () := by
  refine ⟨eq_ok_of_failure?_eq_none, fun h => ?_⟩
  rw [failure?_eq, Option.or_eq_none_iff, firstFailure?_eq_none_iff, firstFailure?_eq_none_iff]
  constructor <;> exact fun e hm => by cases h _ hm

end Startup

namespace Attempt

def lastStep : Except Failure Unit → StartStep
  | .ok () => .passed
  | .error e => .failed e

lemma make_eq_settled_iff {runtime : Runtime σ} {interval began : Nat} {service : Service}
    {tick : Tick} {step : StartStep} {w : World σ} {result : Except Failure Unit} :
    (make runtime interval began service tick step w).1 = .settled result ↔
      step = lastStep result := by
  cases step <;> rcases result with e | _ <;>
    simp [make, lastStep, afterUp_ne_settled, afterCheck_ne_settled]

lemma result_eq_iff {window : Nat} {a : Attempt} {result : Except Failure Unit} :
    a.result window = result ↔ a.progress = .settled result ∨
      (∀ other, a.progress ≠ .settled other) ∧
        result = .error (.serviceNotReady a.service.name (window / 1000)) := by
  unfold Attempt.result
  split
  next last hp => simp [hp]
  next hp =>
    have hn : ∀ other, a.progress ≠ .settled other := fun other ho => hp other ho
    simp [hn, eq_comm]

end Attempt

namespace Startup

variable (runtime : Runtime σ) (p : Patience) (services : List Service) (w : World σ)

def Ends (number place : Nat) (result : Except Failure Unit) : Prop :=
  ∃ tick, next? (w.now + p.window) (after runtime p services w number).1 =
    some (place, tick, Attempt.lastStep result)

/-- What the service at the place comes to: what its last step says, or a timeout if there is no such
step. -/
def ComesTo (place : Nat) (result : Except Failure Unit) : Prop :=
  (∃ number < mostSteps w.checksAtOnce p services, Ends runtime p services w number place result) ∨
    ∃ service, services[place]? = some service ∧
      (∀ number < mostSteps w.checksAtOnce p services, ∀ other, ¬Ends runtime p services w number place other) ∧
      result = .error (.serviceNotReady service.name (p.window / 1000))

variable {runtime p services w}

lemma settled_after_iff {steps place : Nat} {result : Except Failure Unit} :
    (∃ a, (after runtime p services w steps).1[place]? = some a ∧ a.progress = .settled result) ↔
      ∃ number < steps, Ends runtime p services w number place result := by
  induction steps with
  | zero => simp [after, run]
  | succ steps ih =>
    rw [Nat.exists_lt_succ_right, ← ih, Ends]
    rcases after_succ runtime p services w steps with
      ⟨hn, he⟩ | ⟨here, tick, step, a, hn, ha, hd, he⟩
    · simp [hn, he]
    · rw [hn, he]
      by_cases hp : here = place
      · subst hp
        have hlt := (List.getElem?_eq_some_iff.mp ha).1
        simp [List.getElem?_set_self hlt, ha, hd, Attempt.make_eq_settled_iff]
      · simp [List.getElem?_set_ne hp, hp]

lemma after_eq_of_mostSteps_le (hi : p.interval ≠ 0) {steps : Nat}
    (h : mostSteps w.checksAtOnce p services ≤ steps) :
    after runtime p services w steps = after runtime p services w (mostSteps w.checksAtOnce p services) := by
  have hnone := next?_mostSteps runtime hi services w
  obtain ⟨more, rfl⟩ := Nat.exists_eq_add_of_le h
  rw [after, run_add]
  cases more with
  | zero => rfl
  | succ more =>
    rw [run, hnone]
    rfl

lemma Ends.lt_mostSteps {number place : Nat} {result : Except Failure Unit}
    (h : Ends runtime p services w number place result) (hi : p.interval ≠ 0) :
    number < mostSteps w.checksAtOnce p services := by
  by_contra hle
  obtain ⟨tick, hn⟩ := h
  rw [after_eq_of_mostSteps_le hi (Nat.not_lt.mp hle)] at hn
  cases (next?_mostSteps runtime hi services w).symm.trans hn

lemma getElem?_all_iff {place : Nat} {result : Except Failure Unit} :
    (all runtime p services w).1[place]? = some result ↔
      ComesTo runtime p services w place result := by
  have hall : (all runtime p services w).1 =
      (after runtime p services w (mostSteps w.checksAtOnce p services)).1.map (Attempt.result p.window) := rfl
  have hnone (a : Attempt)
      (ha : (after runtime p services w (mostSteps w.checksAtOnce p services)).1[place]? = some a) :
      (∀ other, a.progress ≠ .settled other) ↔
        ∀ number < mostSteps w.checksAtOnce p services, ∀ other,
          ¬Ends runtime p services w number place other := by
    constructor
    · intro h number hlt other ho
      obtain ⟨b, hb, hs⟩ := settled_after_iff.mpr ⟨number, hlt, ho⟩
      rw [ha] at hb
      cases hb
      exact h other hs
    · intro h other ho
      obtain ⟨number, hlt, hends⟩ := settled_after_iff.mp ⟨a, ha, ho⟩
      exact h number hlt other hends
  have hservices : services[place]? =
      (after runtime p services w (mostSteps w.checksAtOnce p services)).1[place]?.map Attempt.service := by
    rw [← List.getElem?_map, services_after]
  rw [hall, List.getElem?_map, Option.map_eq_some_iff, ComesTo, ← settled_after_iff, hservices]
  constructor
  · rintro ⟨a, ha, hr⟩
    rcases Attempt.result_eq_iff.mp hr with hs | ⟨hn, hr⟩
    · exact .inl ⟨a, ha, hs⟩
    · exact .inr ⟨a.service, by rw [ha]; rfl, (hnone a ha).mp hn, hr⟩
  · rintro (⟨a, ha, hs⟩ | ⟨service, hs, hn, hr⟩)
    · exact ⟨a, ha, Attempt.result_eq_iff.mpr (.inl hs)⟩
    · obtain ⟨a, ha, rfl⟩ := Option.map_eq_some_iff.mp hs
      exact ⟨a, ha, Attempt.result_eq_iff.mpr (.inr ⟨(hnone a ha).mpr hn, hr⟩)⟩

end Startup

namespace Session

lemma perform_clearUp_of_error {runtime : Runtime σ} {names : List String} {w v : World σ}
    {f : Failure} (h : (takeDown runtime names).perform w = (.error f, v)) :
    (clearUp runtime names).perform w =
      (.ok (), (v.log (.startTeardownFailed f)).log (.servicesStopped names)) := by
  rw [clearUp, Action.perform_bind, Action.perform_attempt, h]
  rfl

/-- In whatever order known services come to their results, there is a session just if all of them are
ready. Else the failure is the one that is to be reported, even if taking the services down fails as
well. -/
theorem start_reports (runtime : Runtime σ) (p : Patience) {known : List Service}
    {names : List String} (hk : ∀ name ∈ names, name ∈ known.map Service.name) (w : World σ) :
    ∃ services results v, findAll known names = .ok services ∧
      services.map Service.name = names ∧
      Startup.all runtime p services w = (results, v) ∧
      (∀ place result, results[place]? = some result ↔
        Startup.ComesTo runtime p services w place result) ∧
      (p.interval ≠ 0 → ∀ number place result,
        Startup.Ends runtime p services w number place result →
          number < Startup.mostSteps w.checksAtOnce p services) ∧
      (((start runtime p known names).perform w).1 = .ok ⟨names⟩ ↔
        ∀ result ∈ results, result = .ok ()) ∧
      (∀ e, ((start runtime p known names).perform w).1 = .error e ↔
        Startup.IsReported results e) ∧
      ∀ e f u, Startup.IsReported results e →
        (takeDown runtime names).perform v = (.error f, u) →
        (start runtime p known names).perform w =
          (.error e, (u.log (.startTeardownFailed f)).log (.servicesStopped names)) := by
  obtain ⟨services, hf⟩ := findAll_of_subset hk
  rcases hall : Startup.all runtime p services w with ⟨results, v⟩
  have hcomes (place : Nat) (result : Except Failure Unit) :
      results[place]? = some result ↔ Startup.ComesTo runtime p services w place result := by
    rw [← Startup.getElem?_all_iff, hall]
  have hstart := perform_start runtime p hf w
  rw [hall] at hstart
  refine ⟨services, results, v, hf, names_of_findAll hf, hall, hcomes,
    fun hi _ _ _ h => h.lt_mostSteps hi, ?_, fun e => ?_, fun e f u he hd => ?_⟩
  · rw [hstart, ← Startup.failure?_eq_none_iff]
    rcases Startup.failure? results with _ | e <;> simp
  · rw [hstart, ← Startup.failure?_eq_some_iff]
    rcases Startup.failure? results with _ | e <;> simp
  · rw [hstart, Startup.failure?_eq_some_iff.mpr he]
    dsimp only
    rw [perform_clearUp_of_error hd]

def latePrograms : Programs := fun call =>
  if call.arguments.contains "rm" then some ⟨[.write .errors "busy".toUTF8.toList], .exit 1, 0⟩
  else if call.arguments.contains "app" then some ⟨[.pause 1500], .exit 1, 0⟩
  else if call.arguments.contains "db" then
    some ⟨[.pause 10], .exit (if call.arguments.contains "exec" then 1 else 0), 0⟩
  else if call.arguments.contains "queue" then some ⟨[], .never, 0⟩
  else some ⟨[.pause 40], .exit 0, 0⟩

def lateServices : List Service :=
  [⟨"app", []⟩, ⟨"db", ["pg_isready"]⟩, ⟨"queue", []⟩, ⟨"cache", ["ping"]⟩]

def lateRuntime : Runtime Unit :=
  Composition.runtime ⟨none, none, none⟩

theorem start_reports_late :
    ∃ v u, Startup.all lateRuntime ⟨2000, 1000⟩ lateServices (World.fresh latePrograms) =
        ([.error (.service (.upFailed "app" "")), .error (.serviceNotReady "db" 2),
          .error (.serviceNotReady "queue" 2), .ok ()], v) ∧
      (takeDown lateRuntime ["app", "db", "queue", "cache"]).perform v =
        (.error (.service (.downFailed "busy")), u) ∧
      (start lateRuntime ⟨2000, 1000⟩ lateServices.reverse
          ["app", "db", "queue", "cache"]).perform (World.fresh latePrograms) =
        (.error (.serviceNotReady "db" 2),
          (u.log (.startTeardownFailed (.service (.downFailed "busy")))).log
            (.servicesStopped ["app", "db", "queue", "cache"])) := by
  have hk : ∀ name ∈ ["app", "db", "queue", "cache"],
      name ∈ lateServices.reverse.map Service.name := by decide
  obtain ⟨services, results, v, hf, _, hall, _, _, _, _, hdown⟩ :=
    start_reports lateRuntime ⟨2000, 1000⟩ hk (World.fresh latePrograms)
  cases hf.symm.trans (rfl : findAll lateServices.reverse _ = .ok lateServices)
  have hruns : (Startup.all lateRuntime ⟨2000, 1000⟩ lateServices (World.fresh latePrograms)).1 =
        [.error (.service (.upFailed "app" "")), .error (.serviceNotReady "db" 2),
          .error (.serviceNotReady "queue" 2), .ok ()] ∧
      ((takeDown lateRuntime ["app", "db", "queue", "cache"]).perform
        (Startup.all lateRuntime ⟨2000, 1000⟩ lateServices (World.fresh latePrograms)).2).1 =
          .error (.service (.downFailed "busy")) := by
    decide +kernel
  rw [hall] at hruns
  obtain ⟨rfl, hfails⟩ := hruns
  rcases hd : (takeDown lateRuntime ["app", "db", "queue", "cache"]).perform v with ⟨result, u⟩
  rw [hd] at hfails
  obtain rfl : result = .error (.service (.downFailed "busy")) := hfails
  refine ⟨v, u, hall, hd, hdown _ _ _ (.inl ⟨[_], [_, _], rfl, rfl, ?_⟩) hd⟩
  intro other hm
  cases List.mem_singleton.mp hm
  rfl

end Session

end Premerge
