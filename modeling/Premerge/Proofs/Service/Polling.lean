import Premerge.Proofs.Service.Reporting
import Premerge.Service.Memory

/-! A service is checked again and again, once in each interval, and what ends this is the answer that
it is ready or the end of the window. So the number of its checks, and whether it starts, follow from
the number of the check that first finds it ready. -/

namespace Premerge

open Premerge.World

variable {σ : Type}

structure IsFirstYes (answers : Nat → Bool) (n : Nat) : Prop where
  yes : answers n = true
  no_before : ∀ k < n, answers k = false

lemma IsFirstYes.unique {answers : Nat → Bool} {n m : Nat} (h : IsFirstYes answers n)
    (h' : IsFirstYes answers m) : n = m := by
  rcases Nat.lt_trichotomy n m with hlt | he | hgt
  · have hno := h'.no_before n hlt
    simp [h.yes] at hno
  · exact he
  · have hno := h.no_before m hgt
    simp [h'.yes] at hno

section Asking

variable (runtime : Runtime σ) (interval began : Nat) (service : Service) (tick : Tick) (w : World σ)

lemma Attempt.make_up : (make runtime interval began service tick .up w).1 =
    afterReply afterUp tick
      (runtime.up service (World.note { w with now := tick.time } (.upAsked service))).1 :=
  rfl

lemma Attempt.make_check : (make runtime interval began service tick .check w).1 =
    afterReply (afterCheck interval) tick
      (runtime.check service (World.note { w with now := tick.time } (.checkAsked service))).1 :=
  rfl

end Asking

/-- How far a service is after a number of checks, if it answers them at once. -/
inductive Polled (began interval window : Nat) (answers : Nat → Bool) : Nat → Progress → Prop
  | up : Polled began interval window answers 0 (.due ⟨began, 0⟩ .up)
  | granted : Polled began interval window answers 0 (.due ⟨began, 0⟩ .granted)
  | waiting {count : Nat} (no : ∀ k < count, answers k = false)
      (within : ∀ k < count, k * interval ≤ window) :
      Polled began interval window answers count (.due ⟨began + count * interval, 0⟩ .check)
  | passed {n : Nat} (first : IsFirstYes answers n) (within : n * interval ≤ window) :
      Polled began interval window answers (n + 1) (.due ⟨began + n * interval, 0⟩ .passed)
  | ready {n : Nat} (first : IsFirstYes answers n) (within : n * interval ≤ window) :
      Polled began interval window answers (n + 1) (.settled (.ok ()))

namespace Polled

variable {began interval window count : Nat} {answers : Nat → Bool} {progress : Progress}

lemma count_le (h : Polled began interval window answers count progress) (hi : 0 < interval) :
    count ≤ window / interval + 1 := by
  have hbound {n : Nat} (hn : n * interval ≤ window) : n ≤ window / interval :=
    (Nat.le_div_iff_mul_le hi).mpr hn
  cases h with
  | up => apply Nat.zero_le
  | granted => apply Nat.zero_le
  | waiting _ within =>
    cases count with
    | zero => apply Nat.zero_le
    | succ n => exact Nat.succ_le_succ (hbound (within n (Nat.lt_succ_self n)))
  | passed _ within => exact Nat.succ_le_succ (hbound within)
  | ready _ within => exact Nat.succ_le_succ (hbound within)

lemma isWithin_mul {n : Nat} :
    (Tick.mk (began + n * interval) 0).isWithin (began + window) = true ↔ n * interval ≤ window := by
  rw [Nat.le_iff_lt_or_eq]
  simp [Tick.isWithin]

lemma make {runtime : Runtime σ} {service : Service} {tick : Tick} {step : StartStep} {w : World σ}
    (h : Polled began interval window answers count (.due tick step)) (hi : 0 < interval)
    (hw : tick.isWithin (began + window) = true)
    (hup : step = .up → (runtime.up service
      (World.note { w with now := tick.time } (.upAsked service))).1 = .now (.ok ()))
    (hcheck : step = .check → (runtime.check service
      (World.note { w with now := tick.time } (.checkAsked service))).1 = .now (.ok (answers count))) :
    Polled began interval window answers (count + if step = .check then 1 else 0)
      (Attempt.make runtime interval began service tick step w).1 := by
  cases h with
  | up =>
    rw [Attempt.make_up, hup rfl]
    exact .granted
  | granted =>
    have hbegin := @waiting began interval window answers 0 (by simp) (by simp)
    simpa [Attempt.make] using hbegin
  | waiting no within =>
    rw [Attempt.make_check, hcheck rfl, if_pos rfl]
    have hle := isWithin_mul.mp hw
    cases ha : answers count with
    | true => exact .passed ⟨ha, no⟩ hle
    | false =>
      have hnext : (Tick.mk (began + count * interval) 0).wait interval =
          ⟨began + (count + 1) * interval, 0⟩ := by
        simp [Tick.wait, Nat.ne_of_gt hi, Nat.succ_mul, Nat.add_assoc]
      rw [Attempt.afterReply, Attempt.afterCheck, hnext]
      apply waiting
      · intro k hk
        rcases Nat.lt_succ_iff_lt_or_eq.mp hk with hk | rfl
        · exact no k hk
        · exact ha
      · intro k hk
        rcases Nat.lt_succ_iff_lt_or_eq.mp hk with hk | rfl
        · exact within k hk
        · exact hle
  | passed first within => exact .ready first within

lemma ended (h : Polled began interval window answers count progress)
    (hdue : ∀ tick step, progress = .due tick step → tick.isWithin (began + window) = false) :
    (∃ n, IsFirstYes answers n ∧ n * interval ≤ window ∧ count = n + 1 ∧
      progress = .settled (.ok ())) ∨
    (∀ k, k * interval ≤ window → answers k = false) ∧ ∃ tick, progress = .due tick .check := by
  have hbegin : (Tick.mk began 0).isWithin (began + window) = true := by
    have hzero := @isWithin_mul began interval window 0
    simpa using hzero
  cases h with
  | up => simp [hbegin] at hdue
  | granted => simp [hbegin] at hdue
  | waiting no within =>
    refine .inr ⟨fun k hk => no k ?_, _, rfl⟩
    have hpast := hdue _ _ rfl
    rw [← Bool.not_eq_true, isWithin_mul] at hpast
    by_contra hle
    exact hpast ((Nat.mul_le_mul_right interval (Nat.not_lt.mp hle)).trans hk)
  | passed first within => simp [isWithin_mul.mpr within] at hdue
  | ready first within => exact .inl ⟨_, first, within, rfl, rfl⟩

end Polled

namespace Startup

lemma not_isWithin_of_next? {limit : Nat} {attempts : List Attempt}
    (h : next? limit attempts = none) {a : Attempt} (hm : a ∈ attempts) {tick : Tick}
    {step : StartStep} (hd : a.progress = .due tick step) : tick.isWithin limit = false := by
  have hnone : a.next? limit = none := by
    induction attempts with
    | nil => cases hm
    | cons first rest ih =>
      unfold next? at h
      split at h
      next hf hr =>
        rcases List.mem_cons.mp hm with rfl | hm
        · exact hf
        · exact ih hr hm
      all_goals first | cases h | (split at h <;> cases h)
  simpa [Attempt.next?, hd] using hnone

section Counting

variable (runtime : Runtime σ) (p : Patience) (services : List Service) (w : World σ) (place : Nat)

def MakesAt (number : Nat) (step : StartStep) (v : World σ) : Prop :=
  ∃ tick, next? (w.now + p.window) (after runtime p services w number).1 = some (place, tick, step) ∧
    v = { (after runtime p services w number).2 with now := tick.time }

def isCheck (number : Nat) : Bool :=
  (next? (w.now + p.window) (after runtime p services w number).1).any fun (here, _, step) =>
    here = place && step = .check

def checks (steps : Nat) : Nat :=
  (List.range steps).countP (isCheck runtime p services w place)

/-- Whenever it is asked about the service at the place, the runtime answers at once: the service is
up, and is ready as the answers say, of which each is for one check. -/
structure AnswersAtOnce (service : Service) (answers : Nat → Bool) : Prop where
  up (number : Nat) (v : World σ) (h : MakesAt runtime p services w place number .up v) :
    (runtime.up service (v.note (.upAsked service))).1 = .now (.ok ())
  check (number : Nat) (v : World σ) (h : MakesAt runtime p services w place number .check v) :
    (runtime.check service (v.note (.checkAsked service))).1 =
      .now (.ok (answers (checks runtime p services w place number)))

end Counting

variable {runtime : Runtime σ} {p : Patience} {services : List Service} {w : World σ} {place : Nat}
  {service : Service} {answers : Nat → Bool}

lemma checks_succ (steps : Nat) :
    checks runtime p services w place (steps + 1) =
      checks runtime p services w place steps +
        if isCheck runtime p services w place steps then 1 else 0 := by
  simp [checks, List.range_succ, List.countP_append, List.countP_singleton]

lemma polled_after (hs : services[place]? = some service) (hi : 0 < p.interval)
    (h : AnswersAtOnce runtime p services w place service answers) (steps : Nat) :
    ∃ a, (after runtime p services w steps).1[place]? = some a ∧ a.service = service ∧
      Polled w.now p.interval p.window answers (checks runtime p services w place steps)
        a.progress := by
  induction steps with
  | zero => exact ⟨⟨service, .due ⟨w.now, 0⟩ .up⟩, by simp [after, run, hs], rfl, .up⟩
  | succ steps ih =>
    obtain ⟨a, ha, hservice, hpolled⟩ := ih
    rw [checks_succ]
    rcases after_succ runtime p services w steps with
      ⟨hn, he⟩ | ⟨here, tick, step, due, hn, hdue, hd, he⟩
    · rw [he, isCheck, hn]
      exact ⟨a, ha, hservice, hpolled⟩
    · by_cases hp : here = place
      · subst hp
        obtain rfl := Option.some.inj (hdue.symm.trans ha)
        have hlt := (List.getElem?_eq_some_iff.mp ha).1
        have hcheck : isCheck runtime p services w here steps = decide (step = .check) := by
          simp [isCheck, hn]
        rw [hd] at hpolled
        have hup : step = .up → (runtime.up due.service (World.note
            { (after runtime p services w steps).2 with now := tick.time }
              (.upAsked due.service))).1 = .now (.ok ()) := by
          rintro rfl
          exact hservice ▸ h.up steps _ ⟨tick, hn, rfl⟩
        have hchecked : step = .check → (runtime.check due.service (World.note
            { (after runtime p services w steps).2 with now := tick.time }
              (.checkAsked due.service))).1 =
            .now (.ok (answers (checks runtime p services w here steps))) := by
          rintro rfl
          exact hservice ▸ h.check steps _ ⟨tick, hn, rfl⟩
        have hmade := hpolled.make hi (isWithin_of_next? hn) hup hchecked
        rw [he, hcheck]
        refine ⟨_, List.getElem?_set_self hlt, hservice, ?_⟩
        simpa using hmade
      · have hcheck : isCheck runtime p services w place steps = false := by
          simp [isCheck, hn, hp]
        rw [he, hcheck]
        exact ⟨a, by rw [List.getElem?_set_ne hp, ha], hservice, hpolled⟩

lemma polled_end (hs : services[place]? = some service) (hi : 0 < p.interval)
    (h : AnswersAtOnce runtime p services w place service answers) {steps : Nat}
    (hsteps : mostSteps w.checksAtOnce p services ≤ steps) :
    ((∃ n, IsFirstYes answers n ∧ n * p.interval ≤ p.window ∧
        checks runtime p services w place steps = n + 1) ∧
      (all runtime p services w).1[place]? = some (.ok ())) ∨
    (∀ k, k * p.interval ≤ p.window → answers k = false) ∧
      (all runtime p services w).1[place]? =
        some (.error (.serviceNotReady service.name (p.window / 1000))) := by
  obtain ⟨a, ha, hservice, hpolled⟩ := polled_after hs hi h steps
  have hsame : after runtime p services w steps =
      after runtime p services w (mostSteps w.checksAtOnce p services) :=
    after_eq_of_mostSteps_le (Nat.ne_of_gt hi) hsteps
  have hnone : next? (w.now + p.window) (after runtime p services w steps).1 = none := by
    rw [hsame]
    exact next?_mostSteps runtime (Nat.ne_of_gt hi) services w
  have hresult : (all runtime p services w).1[place]? = some (a.result p.window) := by
    have hall : (all runtime p services w).1 =
        (after runtime p services w (mostSteps w.checksAtOnce p services)).1.map (Attempt.result p.window) := rfl
    rw [hall, List.getElem?_map, ← hsame, ha]
    rfl
  have hdue (tick : Tick) (step : StartStep) (hd : a.progress = .due tick step) :
      tick.isWithin (w.now + p.window) = false :=
    not_isWithin_of_next? hnone (List.mem_of_getElem? ha) hd
  rcases hpolled.ended hdue with ⟨n, hfirst, hle, hcount, hp⟩ | ⟨hno, tick, hp⟩
  · rw [hresult, Attempt.result, hp]
    exact .inl ⟨⟨n, hfirst, hle, hcount⟩, rfl⟩
  · rw [hresult, Attempt.result, hp, hservice]
    exact .inr ⟨hno, rfl⟩

section Memory

lemma up_memory (s : MemoryServices) (brought name : String) :
    (s.up brought).readyAfter = s.readyAfter ∧ (s.up brought).checkCount name = s.checkCount name := by
  rw [MemoryServices.up]
  split
  · exact ⟨rfl, rfl⟩
  · exact ⟨rfl, rfl⟩

lemma isReady_memory {s other : MemoryServices} (h : s.readyAfter = other.readyAfter) (name : String)
    (count : Nat) : s.isReady name count = other.isReady name count := by
  rw [MemoryServices.isReady, MemoryServices.isReady, h]

lemma services_make_memory (interval began : Nat) (service : Service) (tick : Tick)
    (step : StartStep) (v : World MemoryServices) (name : String) :
    let made := (Attempt.make MemoryServices.runtime interval began service tick step v).2.services
    made.readyAfter = v.services.readyAfter ∧
      made.checkCount name =
        v.services.checkCount name + if step = .check ∧ service.name = name then 1 else 0 := by
  cases step with
  | up =>
    obtain ⟨hready, hcount⟩ := up_memory v.services service.name name
    exact ⟨hready, hcount.trans (by simp)⟩
  | check =>
    refine ⟨rfl, ?_⟩
    simp only [Attempt.make, MemoryServices.runtime, MemoryServices.checkCount, World.note,
      Data.NameMap.find?_insert]
    by_cases hn : service.name = name
    · simp [hn]
    · simp [hn, Ne.symm hn]
  | granted => exact ⟨rfl, by simp [Attempt.make, World.note]⟩
  | passed => exact ⟨rfl, by simp [Attempt.make, World.note, World.log]⟩
  | failed e => exact ⟨rfl, by simp [Attempt.make]⟩

variable {w : World MemoryServices}

lemma services_after_memory (hn : (services.map Service.name).Nodup)
    (hs : services[place]? = some service) (steps : Nat) :
    let done := (after MemoryServices.runtime p services w steps).2.services
    done.readyAfter = w.services.readyAfter ∧
      done.checkCount service.name = w.services.checkCount service.name +
        checks MemoryServices.runtime p services w place steps := by
  induction steps with
  | zero => exact ⟨rfl, rfl⟩
  | succ steps ih =>
    rw [checks_succ]
    rcases after_succ MemoryServices.runtime p services w steps with
      ⟨hnone, he⟩ | ⟨here, tick, step, due, hnext, hdue, _, he⟩
    · rw [he, isCheck, hnone]
      exact ih
    · obtain ⟨hready, hcount⟩ := services_make_memory p.interval w.now due.service tick step
        (after MemoryServices.runtime p services w steps).2 service.name
      have hnames : (services.map Service.name)[here]? = some due.service.name := by
        rw [← services_after MemoryServices.runtime p services w steps]
        simp [hdue]
      have hsame : due.service.name = service.name ↔ here = place := by
        constructor
        · intro hname
          apply (List.getElem?_inj (List.getElem?_eq_some_iff.mp hnames).1 hn).mp
          simp [hnames, hs, hname]
        · rintro rfl
          simpa [hs] using hnames.symm
      have hcheck : isCheck MemoryServices.runtime p services w place steps =
          decide (step = .check ∧ due.service.name = service.name) := by
        simp [isCheck, hnext, hsame, and_comm]
      rw [he, hcheck]
      refine ⟨hready.trans ih.1, hcount.trans ?_⟩
      rw [ih.2, Nat.add_assoc]
      simp

lemma answersAtOnce_memory (hn : (services.map Service.name).Nodup)
    (hs : services[place]? = some service) :
    AnswersAtOnce MemoryServices.runtime p services w place service fun k =>
      w.services.isReady service.name (w.services.checkCount service.name + k + 1) where
  up _ _ _ := rfl
  check number v h := by
    obtain ⟨tick, _, rfl⟩ := h
    obtain ⟨hready, hcount⟩ := services_after_memory (p := p) (w := w) hn hs number
    have hreply : (MemoryServices.runtime.check service
        (World.note { (after MemoryServices.runtime p services w number).2 with now := tick.time }
          (.checkAsked service))).1 =
        .now (.ok ((after MemoryServices.runtime p services w number).2.services.isReady service.name
          ((after MemoryServices.runtime p services w number).2.services.checkCount service.name + 1))) :=
      rfl
    rw [hreply, hcount, isReady_memory hready]

end Memory

/-- A service that is ready in time is checked until it says so, and no more; any other one is reported
after the checks that the window has room for. In each case the last check is made. -/
theorem started_by_checks (hs : services[place]? = some service) (hi : 0 < p.interval)
    (h : AnswersAtOnce runtime p services w place service answers) :
    (∀ n, answers n = true → (∀ k < n, answers k = false) → n * p.interval < p.window →
      (all runtime p services w).1[place]? = some (.ok ()) ∧
        ∀ steps, mostSteps w.checksAtOnce p services ≤ steps →
          checks runtime p services w place steps = n + 1) ∧
    ((∀ n, answers n = true → p.window < n * p.interval) →
      (all runtime p services w).1[place]? =
          some (.error (.serviceNotReady service.name (p.window / 1000))) ∧
        ∀ steps, checks runtime p services w place steps ≤ p.window / p.interval + 1) ∧
    next? (w.now + p.window) (after runtime p services w (mostSteps w.checksAtOnce p services)).1 = none := by
  refine ⟨fun n hyes hno hlt => ?_, fun hlate => ⟨?_, fun steps => ?_⟩, ?_⟩
  · have hready : ∀ steps, mostSteps w.checksAtOnce p services ≤ steps →
        (all runtime p services w).1[place]? = some (.ok ()) ∧
          checks runtime p services w place steps = n + 1 := by
      intro steps hsteps
      rcases polled_end hs hi h hsteps with ⟨⟨m, hfirst, _, hcount⟩, hall⟩ | ⟨hnever, _⟩
      · rw [hcount, hfirst.unique ⟨hyes, hno⟩]
        exact ⟨hall, rfl⟩
      · simp [hnever n hlt.le] at hyes
    exact ⟨(hready _ le_rfl).1, fun steps hsteps => (hready steps hsteps).2⟩
  · rcases polled_end hs hi h le_rfl with ⟨⟨m, hfirst, hle, _⟩, _⟩ | ⟨_, hall⟩
    · exact absurd hle (Nat.not_le.mpr (hlate m hfirst.yes))
    · exact hall
  · obtain ⟨_, _, _, hpolled⟩ := polled_after hs hi h steps
    exact hpolled.count_le hi
  · exact next?_mostSteps runtime (Nat.ne_of_gt hi) services w

def polledServices : List Service :=
  [⟨"db", ["pg_isready", "-U", "postgres"]⟩, ⟨"sign_node", []⟩]

def polledWorld (database : Option Nat) : World MemoryServices :=
  { World.fresh fun _ => none with services := .fresh [("db", database)] }

theorem started_by_checks_database :
    ((all MemoryServices.runtime ⟨1000, 5⟩ polledServices (polledWorld (some 3))).1[0]? =
        some (.ok ()) ∧
      checks MemoryServices.runtime ⟨1000, 5⟩ polledServices (polledWorld (some 3)) 0
        (mostSteps 1 ⟨1000, 5⟩ polledServices) = 3) ∧
    (all MemoryServices.runtime ⟨1030, 500⟩ polledServices (polledWorld (some 4))).1[0]? =
        some (.error (.serviceNotReady "db" 1)) ∧
      ∀ steps, checks MemoryServices.runtime ⟨1030, 500⟩ polledServices (polledWorld (some 4)) 0
        steps ≤ 3 := by
  have hnames : (polledServices.map Service.name).Nodup := by decide
  have hdatabase : polledServices[0]? = some ⟨"db", ["pg_isready", "-U", "postgres"]⟩ := rfl
  have hready := started_by_checks (p := ⟨1000, 5⟩) hdatabase (by decide)
    (answersAtOnce_memory (w := polledWorld (some 3)) hnames hdatabase)
  have hlate := started_by_checks (p := ⟨1030, 500⟩) hdatabase (by decide)
    (answersAtOnce_memory (w := polledWorld (some 4)) hnames hdatabase)
  have hneeded (needed k : Nat) : (polledWorld (some needed)).services.isReady "db"
      ((polledWorld (some needed)).services.checkCount "db" + k + 1) = true ↔ needed ≤ k + 1 := by
    simp [polledWorld, MemoryServices.isReady, MemoryServices.fresh, MemoryServices.checkCount,
      Data.NameMap.find?, Data.NameMap.empty]
  obtain ⟨hall, hchecks⟩ := hready.1 2 (by decide) (by decide) (by decide)
  refine ⟨⟨hall, hchecks _ le_rfl⟩, hlate.2.1 fun n hyes => ?_⟩
  have hn := (hneeded 4 n).mp hyes
  show 1030 < n * 500
  omega

end Startup

end Premerge
