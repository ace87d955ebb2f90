import Mathlib.Tactic.Lemma
import Premerge.Job.Validation

namespace Premerge

open Premerge.Change (ChangeSet)
open Premerge.World

variable {σ α β : Type}

def Failure.isRefusal : Failure → Bool
  | .longLines _ _ | .git _ | .config _ | .report (.notEmpty _) => true
  | _ => false

def Happening.isQuestion : Happening → Bool
  | .logged (.composeCalled _) => false
  | .logged _ => true
  | .called words => words.head? == some "git"
  | _ => false

/-- The version control system may have been asked, and else nothing has been done. -/
structure World.Untouched (w v : World σ) : Prop where
  files : v.files = w.files
  services : v.services = w.services
  asked : w.Extends (fun what => what.isQuestion = true) v

lemma World.Untouched.refl (w : World σ) : w.Untouched w :=
  ⟨rfl, rfl, .refl _ w⟩

lemma World.Untouched.trans {w v u : World σ} (h : w.Untouched v) (h' : v.Untouched u) :
    w.Untouched u :=
  ⟨h'.files.trans h.files, h'.services.trans h.services, h.asked.trans h'.asked⟩

namespace Action

structure OnlyAsks (a : Action σ α) : Prop where
  untouched (w : World σ) : w.Untouched (a.perform w).2
  refusal {w v : World σ} {e : Failure} : a.perform w = (.error e, v) → e.isRefusal = true

namespace OnlyAsks

lemma bind {a : Action σ α} {f : α → Action σ β} (h : a.OnlyAsks)
    (hf : ∀ x, (f x).OnlyAsks) : (a >>= f).OnlyAsks := by
  constructor
  · intro w
    have hw := h.untouched w
    rw [perform_bind]
    rcases hp : a.perform w with ⟨e | x, v⟩ <;> rw [hp] at hw
    · exact hw
    · exact hw.trans ((hf x).untouched v)
  · intro w v e hv
    rw [perform_bind] at hv
    rcases hp : a.perform w with ⟨e | x, u⟩ <;> rw [hp] at hv
    · cases hv
      exact h.refusal hp
    · exact (hf x).refusal hv

lemma pure (x : α) : (pure x : Action σ α).OnlyAsks :=
  ⟨fun w => .refl w, fun h => by cases h⟩

lemma throw {e : Failure} (he : e.isRefusal = true) : (throw e : Action σ α).OnlyAsks := by
  refine ⟨fun w => .refl w, fun h => ?_⟩
  cases h
  exact he

lemma get : (get : Action σ (World σ)).OnlyAsks :=
  ⟨fun w => .refl w, fun h => by cases h⟩

lemma draw : (draw : Action σ Nat).OnlyAsks :=
  ⟨fun _ => ⟨rfl, rfl, .of_past rfl⟩, fun h => by cases h⟩

lemma log {event : Event} (he : (Happening.logged event).isQuestion = true) :
    (log event : Action σ Unit).OnlyAsks :=
  ⟨fun w => ⟨rfl, rfl, w.extends_note he⟩, fun h => by cases h⟩

lemma ofExcept {result : Except Failure α}
    (h : ∀ e, result = .error e → e.isRefusal = true) : (ofExcept result : Action σ α).OnlyAsks := by
  cases result with
  | ok x => exact .pure x
  | error e => exact .throw (h e rfl)

lemma runCommand {fault : SystemError → Failure} {c : Command} (hc : c.program = "git")
    (hf : ∀ e, (fault e).isRefusal = true) :
    (runCommand fault c : Action σ Behaviour).OnlyAsks := by
  constructor
  · intro w
    have ha : w.Extends (fun what => what.isQuestion = true) (w.start c).2 :=
      w.extends_start c (by simp [Happening.isQuestion, Command.words, hc])
    have hs : (w.start c).2.files = w.files ∧ (w.start c).2.services = w.services := by
      unfold World.start
      split <;> exact ⟨rfl, rfl⟩
    rw [perform_runCommand]
    rcases hw : w.start c with ⟨e | behaviour, v⟩ <;> rw [hw] at ha hs
    · exact .refl w
    · exact ⟨hs.1, hs.2, ha.trans (.of_past rfl)⟩
  · intro w v e h
    rw [perform_runCommand] at h
    split at h
    · cases h
      exact hf _
    · cases h

end OnlyAsks

end Action

namespace Repository

open Premerge.Action

lemma onlyAsks_ask (repository : Path) (arguments : List String) :
    (ask repository arguments : Action σ _).OnlyAsks := by
  refine (OnlyAsks.runCommand rfl fun _ => rfl).bind fun behaviour => ?_
  split
  · exact .pure _
  · exact .throw rfl

lemma onlyAsks_commitOf (repository : Path) (revision : String) :
    (commitOf repository revision : Action σ _).OnlyAsks := by
  refine (onlyAsks_ask _ _).bind fun output => ?_
  dsimp only
  split
  · exact .throw rfl
  · exact .pure _

lemma onlyAsks_mergeBase (repository : Path) (base head : String) :
    (mergeBase repository base head : Action σ _).OnlyAsks :=
  (onlyAsks_ask _ _).bind fun _ => .pure _

lemma onlyAsks_messageOf (repository : Path) (revision : String) :
    (messageOf repository revision : Action σ _).OnlyAsks :=
  (onlyAsks_ask _ _).bind fun _ => .pure _

end Repository

lemma Change.NameStatus.isRefusal_of_records {rows : List (List Char)} {e : Failure}
    (h : records rows = .error e) : e.isRefusal = true := by
  fun_induction records rows with
  | case1 => cases h
  | case2 code =>
    cases h
    rfl
  | case3 code first status hs =>
    cases h
    rfl
  | case4 => cases h
  | case5 code first status hs path rest e' he ih =>
    cases h
    exact ih he
  | case6 => cases h
  | case7 code first rest status hs e' he ih =>
    cases h
    exact ih he

lemma Change.PredicateSpec.isRefusal_of_patterns {spec : PredicateSpec} {globs : List String}
    {e : Failure} (h : spec.patterns globs = .error e) : e.isRefusal = true := by
  induction globs with
  | nil => cases h
  | cons glob rest ih =>
    unfold patterns at h
    split at h
    · cases h
      rfl
    · split at h
      next hr =>
        cases h
        exact ih hr
      · cases h

lemma Change.ChangeSet.isRefusal_of_addAll {files : List Change.File}
    {known : Data.NameMap Change.Predicate} {specs : List PredicateSpec} {e : Failure}
    (h : addAll files known specs = .error e) : e.isRefusal = true := by
  induction specs generalizing known with
  | nil => cases h
  | cons spec rest ih =>
    unfold addAll at h
    split at h
    next he =>
      cases h
      unfold PredicateSpec.evaluate at he
      split at he
      next hp =>
        cases he
        exact PredicateSpec.isRefusal_of_patterns hp
      · cases he
    · split at h
      · cases h
        rfl
      · exact ih h

lemma ToolTable.isRefusal_of_registerAll {table : ToolTable} {tools : List Tool} {e : Failure}
    (h : table.registerAll tools = .error e) : e.isRefusal = true := by
  induction tools generalizing table with
  | nil => cases h
  | cons tool rest ih =>
    unfold registerAll at h
    split at h
    next hr =>
      cases h
      unfold register at hr
      split at hr
      · cases hr
        rfl
      split at hr
      · cases hr
        rfl
      split at hr
      · cases hr
        rfl
      · cases hr
    · exact ih h

lemma CommitMessage.isRefusal_of_check {message : CommitMessage} {limit : Nat} {e : Failure}
    (h : message.check limit = .error e) : e.isRefusal = true := by
  unfold check at h
  split at h
  · cases h
  · cases h
    rfl

namespace Job

open Premerge.Action

lemma onlyAsks_resolve (request : Request) (toolNames : List String) :
    (resolve request toolNames : Action σ Job).OnlyAsks :=
  (Repository.onlyAsks_commitOf _ _).bind fun _ =>
    (Repository.onlyAsks_mergeBase _ _ _).bind fun _ =>
      OnlyAsks.draw.bind fun _ => OnlyAsks.get.bind fun _ => .pure _

lemma onlyAsks_checkMessage (job : Job) (limit : Nat) :
    (job.checkMessage limit : Action σ Unit).OnlyAsks :=
  (Repository.onlyAsks_messageOf _ _).bind fun _ =>
    .ofExcept fun _ h => CommitMessage.isRefusal_of_check h

lemma onlyAsks_classify (job : Job) (c : Config) : (job.classify c : Action σ _).OnlyAsks := by
  have hfiles : (Repository.changedFiles job.repository job.mergeBase job.headSha :
      Action σ _).OnlyAsks :=
    (Repository.onlyAsks_mergeBase _ _ _).bind fun _ =>
      (Repository.onlyAsks_ask _ _).bind fun _ =>
        .ofExcept fun _ h => Change.NameStatus.isRefusal_of_records h
  refine hfiles.bind fun files => OnlyAsks.bind (.ofExcept fun e h => ?_) fun changes =>
    (OnlyAsks.log rfl).bind fun _ => .pure _
  unfold ChangeSet.classify at h
  split at h
  next hadd =>
    cases h
    exact ChangeSet.isRefusal_of_addAll hadd
  · cases h

structure Examined where
  tools : List Tool
  job : Job
  began : Nat
  changes : ChangeSet

def examine (c : Config) (request : Request) : Action σ Examined := do
  let table ← Action.ofExcept c.toolTable
  let job ← resolve request table.names
  let began := (← get).now
  Action.log (.jobStarted job.id job.headSha job.pr)
  job.checkMessage c.commit.maxLineLength
  let changes ← job.classify c
  pure { tools := table.tools, job, began, changes }

lemma prepare_eq (c : Config) (request : Request) :
    (prepare c request : Action σ Prepared) = (do
      let known ← examine c request
      let reports ← known.job.openReports request
      pure ⟨known.tools, known.job, known.began, reports, request.repository, known.changes⟩) := by
  simp only [prepare, examine, bind_assoc, pure_bind]

lemma onlyAsks_examine (c : Config) (request : Request) :
    (examine c request : Action σ Examined).OnlyAsks :=
  (OnlyAsks.ofExcept fun _ h => ToolTable.isRefusal_of_registerAll h).bind fun _ =>
    (onlyAsks_resolve _ _).bind fun job =>
      OnlyAsks.get.bind fun _ =>
        (OnlyAsks.log rfl).bind fun _ =>
          (onlyAsks_checkMessage job _).bind fun _ =>
            (onlyAsks_classify job c).bind fun _ => .pure _

end Job

end Premerge
