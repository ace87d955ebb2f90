import Premerge.Config.Text
import Premerge.Proofs.Change.Predicates
import Premerge.Proofs.Config.Acceptance
import Premerge.Proofs.Job.Failing
import Premerge.Proofs.Service.Readiness

/-! Each stage of a job fails for causes of its own. So what is wrong with a configuration that has
been accepted can only come to light where its predicates are evaluated. -/

namespace Premerge

open Premerge.Change (ChangeSet HaveFault AreSound)
open Premerge.Report (Directory)
open Premerge.World

variable {σ α β : Type}

def Failure.IsOfGit (e : Failure) : Prop :=
  ∃ fault, e = .git fault

def Failure.IsOfReports (e : Failure) : Prop :=
  (∃ fault, e = .report fault) ∨ ∃ cause, e = .system cause

namespace Action

def FailsOnly (allowed : Failure → Prop) (a : Action σ α) : Prop :=
  ∀ w v e, a.perform w = (.error e, v) → allowed e

namespace FailsOnly

variable {allowed : Failure → Prop}

lemma mono {more : Failure → Prop} {a : Action σ α} (h : a.FailsOnly allowed)
    (hm : ∀ e, allowed e → more e) : a.FailsOnly more :=
  fun w v e he => hm e (h w v e he)

lemma bind {a : Action σ α} {f : α → Action σ β} (h : a.FailsOnly allowed)
    (hf : ∀ x, (f x).FailsOnly allowed) : (a >>= f).FailsOnly allowed := by
  intro w v e he
  rcases perform_bind_error he with he | ⟨x, u, _, he⟩
  · exact h w v e he
  · exact hf x u v e he

lemma pure (x : α) : (pure x : Action σ α).FailsOnly allowed :=
  fun _ _ _ h => by cases h

lemma throw {e : Failure} (he : allowed e) : (throw e : Action σ α).FailsOnly allowed := by
  intro w v other h
  cases h
  exact he

lemma get : (get : Action σ (World σ)).FailsOnly allowed :=
  fun _ _ _ h => by cases h

lemma draw : (draw : Action σ Nat).FailsOnly allowed :=
  fun _ _ _ h => by cases h

lemma log (event : Event) : (log event : Action σ Unit).FailsOnly allowed :=
  fun _ _ _ h => by cases h

lemma ofExcept {result : Except Failure α} (h : ∀ e, result = .error e → allowed e) :
    (ofExcept result : Action σ α).FailsOnly allowed := by
  cases result with
  | ok x => exact .pure x
  | error e => exact .throw (h e rfl)

lemma runCommand {fault : SystemError → Failure} (hf : ∀ e, allowed (fault e)) (c : Command) :
    (runCommand fault c : Action σ Behaviour).FailsOnly allowed := by
  intro w v e h
  rw [perform_runCommand] at h
  split at h <;> cases h
  exact hf _

lemma changeFiles {fault : SystemError → Failure} (hf : ∀ e, allowed (fault e))
    (change : FileTree → Except SystemError FileTree) :
    (changeFiles fault change : Action σ Unit).FailsOnly allowed := by
  intro w v e h
  rw [perform_changeFiles] at h
  split at h <;> cases h
  exact hf _

end FailsOnly

end Action

open Premerge.Action

lemma Change.NameStatus.isOfGit_of_records {rows : List (List Char)} {e : Failure}
    (h : records rows = .error e) : e.IsOfGit := by
  fun_induction records rows with
  | case1 => cases h
  | case2 code =>
    cases h
    exact ⟨_, rfl⟩
  | case3 code first status hs =>
    cases h
    exact ⟨_, rfl⟩
  | case4 => cases h
  | case5 code first status hs path rest e' he ih =>
    cases h
    exact ih he
  | case6 => cases h
  | case7 code first rest status hs e' he ih =>
    cases h
    exact ih he

lemma CommitMessage.eq_of_check {message : CommitMessage} {limit : Nat} {e : Failure}
    (h : message.check limit = .error e) : ∃ lines, e = .longLines limit lines := by
  rw [check] at h
  split at h <;> cases h
  exact ⟨_, rfl⟩

namespace Repository

lemma failsOnly_ask (repository : Path) (arguments : List String) :
    (ask repository arguments : Action σ _).FailsOnly Failure.IsOfGit := by
  refine (FailsOnly.runCommand (fun _ => ⟨_, rfl⟩) _).bind fun behaviour => ?_
  split
  · exact .pure _
  · exact .throw ⟨_, rfl⟩

lemma failsOnly_commitOf (repository : Path) (revision : String) :
    (commitOf repository revision : Action σ _).FailsOnly Failure.IsOfGit := by
  refine (failsOnly_ask _ _).bind fun output => ?_
  dsimp only
  split
  · exact .throw ⟨_, rfl⟩
  · exact .pure _

lemma failsOnly_mergeBase (repository : Path) (base head : String) :
    (mergeBase repository base head : Action σ _).FailsOnly Failure.IsOfGit :=
  (failsOnly_ask _ _).bind fun _ => .pure _

lemma failsOnly_messageOf (repository : Path) (revision : String) :
    (messageOf repository revision : Action σ _).FailsOnly Failure.IsOfGit :=
  (failsOnly_ask _ _).bind fun _ => .pure _

lemma failsOnly_changedFiles (repository : Path) (base head : String) :
    (changedFiles repository base head : Action σ _).FailsOnly Failure.IsOfGit :=
  (failsOnly_mergeBase _ _ _).bind fun _ =>
    (failsOnly_ask _ _).bind fun _ =>
      .ofExcept fun _ h => Change.NameStatus.isOfGit_of_records h

end Repository

namespace Job

lemma failsOnly_resolve (request : Request) (toolNames : List String) :
    (resolve request toolNames : Action σ Job).FailsOnly Failure.IsOfGit :=
  (Repository.failsOnly_commitOf _ _).bind fun _ =>
    (Repository.failsOnly_mergeBase _ _ _).bind fun _ =>
      FailsOnly.draw.bind fun _ => FailsOnly.get.bind fun _ => .pure _

lemma failsOnly_checkMessage (job : Job) (limit : Nat) :
    (job.checkMessage limit : Action σ Unit).FailsOnly
      fun e => e.IsOfGit ∨ ∃ lines, e = .longLines limit lines :=
  ((Repository.failsOnly_messageOf _ _).mono fun _ => .inl).bind fun _ =>
    .ofExcept fun _ h => .inr (CommitMessage.eq_of_check h)

lemma failsOnly_classify (job : Job) (c : Config) :
    (job.classify c : Action σ _).FailsOnly
      fun e => e.IsOfGit ∨ ∃ fault, e = .config fault ∧ HaveFault c.predicates fault := by
  refine ((Repository.failsOnly_changedFiles _ _ _).mono fun _ => .inl).bind fun files =>
    FailsOnly.bind (.ofExcept fun e h => .inr ?_) fun changes =>
      (FailsOnly.log _).bind fun _ => .pure _
  rcases ChangeSet.classify_cases files c.predicates with ⟨changes, hok, _⟩ | ⟨fault, hc, hfault⟩
  · cases hok.symm.trans h
  · cases hc.symm.trans h
    exact ⟨fault, rfl, hfault⟩

lemma failsOnly_openReports (job : Job) (request : Request) :
    (job.openReports request : Action σ Directory).FailsOnly Failure.IsOfReports := by
  have hcreate : (Directory.create request.reports : Action σ _).FailsOnly Failure.IsOfReports := by
    intro w v e h
    rw [Directory.perform_create] at h
    split at h
    next refused hr =>
      cases h
      rw [Directory.refusal?] at hr
      split at hr
      · split at hr
        · cases hr
          exact .inl ⟨_, rfl⟩
        · split at hr <;> cases hr
          exact .inl ⟨_, rfl⟩
      · cases hr
    · split at h <;> cases h
      exact .inl ⟨_, rfl⟩
  exact hcreate.bind fun reports =>
    ((FailsOnly.changeFiles (fun _ => .inr ⟨_, rfl⟩) _).bind fun _ => .pure _).bind fun _ => .pure _

def IsCause (c : Config) (e : Failure) : Prop :=
  e.IsOfGit ∨ (∃ lines, e = .longLines c.commit.maxLineLength lines) ∨
    (∃ fault, e = .config fault ∧ HaveFault c.predicates fault) ∨ e.IsOfReports

lemma failsOnly_prepare {c : Config} {table : ToolTable} (ht : c.toolTable = .ok table)
    (request : Request) : (prepare c request : Action σ Prepared).FailsOnly (IsCause c) := by
  have htable : (Action.ofExcept c.toolTable : Action σ ToolTable).FailsOnly (IsCause c) :=
    .ofExcept fun e h => by cases ht.symm.trans h
  exact htable.bind fun _ =>
    ((failsOnly_resolve request _).mono fun _ h => .inl h).bind fun job =>
      FailsOnly.get.bind fun _ =>
        (FailsOnly.log _).bind fun _ =>
          ((failsOnly_checkMessage job _).mono fun _ h => h.imp_right .inl).bind fun _ =>
            ((failsOnly_classify job c).mono fun _ h => h.imp_right fun h => .inr (.inl h)).bind
              fun _ => ((failsOnly_openReports job request).mono
                fun _ h => .inr (.inr (.inr h))).bind fun _ => .pure _

end Job

lemma Session.failsOnly_start (runtime : Runtime σ) (p : Patience) {known : List Service}
    {names : List String} (hk : ∀ name ∈ names, name ∈ known.map Service.name) :
    (start runtime p known names).FailsOnly fun e =>
      ∃ service ∈ known,
        e = .serviceNotReady service.name (p.window / 1000) ∨ runtime.CanFail service e := by
  intro w v e h
  obtain ⟨services, hf⟩ := findAll_of_subset hk
  rw [perform_start runtime p hf] at h
  split at h
  · cases h
  next failure hfail =>
    cases h
    obtain ⟨service, hm, he⟩ := Startup.failed_all (Startup.mem_of_failure? hfail)
    obtain ⟨name, _, hfound⟩ := (mem_findAll hf).mp hm
    exact ⟨service, List.mem_of_find?_eq_some hfound, he⟩

lemma Runtime.IsOutside.isOfServices_of_canFail {runtime : Runtime σ} (h : runtime.IsOutside)
    {service : Service} {e : Failure} (he : runtime.CanFail service e) : e.isOfServices = true := by
  obtain ⟨w, hw | hw⟩ := he
  · exact h.failure_up service w e (Reply.failure?_of_result? hw)
  · exact h.failure_check service w e (Reply.failure?_of_result? hw)

/-- In an accepted configuration the tools and the services are in order. A job that finds a fault
with it finds it in its predicates, or its runtime does. -/
theorem Config.fault_of_run {text : String} {c : Config} (h : ofText text = .ok c) :
    (∃ table, c.toolTable = .ok table) ∧
    (∃ services, Session.findAll c.services.required c.services.names = .ok services) ∧
    (∀ files, (∃ changes, ChangeSet.classify files c.predicates = .ok changes) ↔
      AreSound c.predicates) ∧
    ∀ (runtime : Runtime σ) (request : Request) (w v : World σ) (fault : ConfigFault),
      (c.run runtime request).perform w = (.error (.config fault), v) →
        (HaveFault c.predicates fault ∧ ¬AreSound c.predicates) ∨
          ∃ service ∈ c.services.required, runtime.CanFail service (.config fault) := by
  obtain ⟨_, _, _, table, ht⟩ := validate_eq_ok_iff.mp (ofText_eq_ok_iff.mp h).2
  have hknown : ∀ name ∈ c.services.names, name ∈ c.services.required.map Service.name :=
    fun _ hm => hm
  refine ⟨⟨table, ht⟩, Session.findAll_of_subset hknown, fun _ => ChangeSet.exists_classify_iff,
    fun runtime request w v fault hrun => ?_⟩
  rw [perform_run] at hrun
  rcases hp : (Job.prepare c request).perform w with ⟨e | prepared, first⟩ <;> rw [hp] at hrun
  · cases hrun
    rcases Job.failsOnly_prepare ht request w v _ hp with ⟨_, he⟩ | ⟨_, he⟩ | ⟨_, he, hfault⟩ |
      ⟨_, he⟩ | ⟨_, he⟩ <;> cases he
    exact .inl ⟨hfault, Change.not_areSound_of_haveFault hfault⟩
  dsimp only at hrun
  rcases hs : (Session.start runtime (Job.patience c) c.services.required
    c.services.names).perform first with ⟨e | session, u⟩ <;> rw [hs] at hrun
  · cases hrun
    obtain ⟨service, hm, he | hfail⟩ := Session.failsOnly_start runtime _ hknown first v _ hs
    · cases he
    · exact .inr ⟨service, hm, hfail⟩
  · cases (Job.failed_conclude hrun).1

def predicatesText (predicates : List (String × String)) : String :=
  "tools = []\n[services]\nrequired = []\n" ++ String.join (predicates.map fun (name, glob) =>
    "[[predicates]]\nname = \"" ++ name ++ "\"\nglobs = [\"" ++ glob ++ "\"]\n")

def lateFault? (text : String) : Option ConfigFault :=
  match Config.ofText text with
  | .error _ => none
  | .ok c =>
    match (c.run (Composition.runtime ⟨none, none, none⟩) (lintRequest none)).perform lintWorld with
    | (.error (.config fault), _) => some fault
    | _ => none

lemma run_of_lateFault? {text : String} {fault : ConfigFault}
    (h : lateFault? text = some fault) :
    ∃ c v, Config.ofText text = .ok c ∧
      (c.run (Composition.runtime ⟨none, none, none⟩) (lintRequest none)).perform lintWorld =
        (.error (.config fault), v) := by
  rw [lateFault?] at h
  split at h
  · cases h
  next c hc =>
    split at h
    next other v hrun =>
      cases h
      exact ⟨c, v, hc, hrun⟩
    · cases h

/-- A glob that is none and two predicates of one name are accepted, and end every job that gets as
far as its predicates. -/
theorem refused_late :
    (∃ c v, Config.ofText (predicatesText [("source", "a**")]) = .ok c ∧
      (c.run (Composition.runtime ⟨none, none, none⟩) (lintRequest none)).perform lintWorld =
        (.error (.config (.badGlob "source" "a**" ⟨0, .recursive⟩)), v)) ∧
    ∃ c v, Config.ofText (predicatesText [("source", "*.py"), ("source", "*.rs")]) = .ok c ∧
      (c.run (Composition.runtime ⟨none, none, none⟩) (lintRequest none)).perform lintWorld =
        (.error (.config (.duplicatePredicate "source")), v) := by
  have hglob : lateFault? (predicatesText [("source", "a**")]) =
      some (.badGlob "source" "a**" ⟨0, .recursive⟩) := by
    decide +kernel
  have htwice : lateFault? (predicatesText [("source", "*.py"), ("source", "*.rs")]) =
      some (.duplicatePredicate "source") := by
    decide +kernel
  exact ⟨run_of_lateFault? hglob, run_of_lateFault? htwice⟩

theorem fault_of_run_twice :
    ∃ c v, Config.ofText (predicatesText [("source", "*.py"), ("source", "*.rs")]) = .ok c ∧
      (c.run (Composition.runtime ⟨none, none, none⟩) (lintRequest none)).perform lintWorld =
        (.error (.config (.duplicatePredicate "source")), v) ∧
      ((HaveFault c.predicates (.duplicatePredicate "source") ∧ ¬AreSound c.predicates) ∨
        ∃ service ∈ c.services.required,
          (Composition.runtime ⟨none, none, none⟩ : Runtime Unit).CanFail service
            (.config (.duplicatePredicate "source"))) := by
  have htwice : lateFault? (predicatesText [("source", "*.py"), ("source", "*.rs")]) =
      some (.duplicatePredicate "source") := by
    decide +kernel
  obtain ⟨c, v, hc, hrun⟩ := run_of_lateFault? htwice
  exact ⟨c, v, hc, hrun, (Config.fault_of_run hc).2.2.2 _ _ _ _ _ hrun⟩

end Premerge
