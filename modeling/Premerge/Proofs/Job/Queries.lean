import Premerge.Proofs.Job.Causes
import Premerge.Proofs.Run.Alone

/-! A job asks the version control system one question after the other. What it is answered depends
on the files, the programs and their variables only, and a question changes none of them. So all
questions can be taken to be asked in the world in which the job begins. -/

namespace Premerge

open Premerge.Change (ChangeSet)
open Premerge.World

variable {σ α β : Type}

structure World.AnswersAlike (w v : World σ) : Prop where
  files : v.files = w.files
  programs : v.programs = w.programs
  environment : v.environment = w.environment

lemma World.AnswersAlike.refl (w : World σ) : w.AnswersAlike w :=
  ⟨rfl, rfl, rfl⟩

lemma World.AnswersAlike.trans {w v u : World σ} (h : w.AnswersAlike v)
    (h' : v.AnswersAlike u) : w.AnswersAlike u :=
  ⟨h'.files.trans h.files, h'.programs.trans h.programs, h'.environment.trans h.environment⟩

namespace Action

def answer (a : Action σ α) (w : World σ) : Except Failure α :=
  (a.perform w).1

lemma FailsOnly.answer {allowed : Failure → Prop} {a : Action σ α} (h : a.FailsOnly allowed)
    {w : World σ} {e : Failure} (he : a.answer w = .error e) : allowed e := by
  rcases hp : a.perform w with ⟨result, v⟩
  rw [Action.answer, hp] at he
  exact h w v e (hp.trans (congrArg (·, v) he))

structure IsQuery (a : Action σ α) : Prop where
  keeps (w : World σ) : w.AnswersAlike (a.perform w).2
  answer_eq {w v : World σ} : w.AnswersAlike v → a.answer v = a.answer w

namespace IsQuery

lemma pure (x : α) : (pure x : Action σ α).IsQuery :=
  ⟨fun w => .refl w, fun _ => rfl⟩

lemma throw (e : Failure) : (throw e : Action σ α).IsQuery :=
  ⟨fun w => .refl w, fun _ => rfl⟩

lemma ofExcept (result : Except Failure α) : (ofExcept result : Action σ α).IsQuery := by
  cases result with
  | ok x => exact .pure x
  | error e => exact .throw e

lemma log (event : Event) : (log event : Action σ Unit).IsQuery :=
  ⟨fun _ => ⟨rfl, rfl, rfl⟩, fun _ => rfl⟩

/-- The second question can be asked in the same world as the first one. -/
lemma answer_bind {a : Action σ α} {f : α → Action σ β} (h : a.IsQuery)
    (hf : ∀ x, (f x).IsQuery) (w : World σ) :
    (a >>= f).answer w = a.answer w >>= fun x => (f x).answer w := by
  have hw := h.keeps w
  rw [answer, answer, perform_bind]
  rcases hp : a.perform w with ⟨e | x, v⟩ <;> rw [hp] at hw
  · rfl
  · exact (hf x).answer_eq hw

lemma bind {a : Action σ α} {f : α → Action σ β} (h : a.IsQuery) (hf : ∀ x, (f x).IsQuery) :
    (a >>= f).IsQuery := by
  constructor
  · intro w
    have hw := h.keeps w
    rw [perform_bind]
    rcases hp : a.perform w with ⟨e | x, v⟩ <;> rw [hp] at hw
    · exact hw
    · exact hw.trans ((hf x).keeps v)
  · intro w v hwv
    rw [answer_bind h hf, answer_bind h hf, h.answer_eq hwv]
    exact congrArg _ (funext fun x => (hf x).answer_eq hwv)

lemma runCommand (fault : SystemError → Failure) (c : Command) :
    (runCommand fault c : Action σ Behaviour).IsQuery := by
  constructor
  · intro w
    rw [perform_runCommand, start]
    cases w.behaviourOf c with
    | error e => exact .refl w
    | ok behaviour => exact ⟨rfl, rfl, rfl⟩
  · intro w v h
    rw [answer, answer, perform_runCommand, perform_runCommand, start, start,
      Workplace.behaviourOf_congr h.programs h.environment h.files]
    cases w.behaviourOf c <;> rfl

end IsQuery

end Action

open Premerge.Action

namespace Repository

lemma isQuery_ask (repository : Path) (arguments : List String) :
    (ask repository arguments : Action σ _).IsQuery := by
  refine (IsQuery.runCommand _ _).bind fun behaviour => ?_
  split
  · exact .pure _
  · exact .throw _

lemma isQuery_commitOf (repository : Path) (revision : String) :
    (commitOf repository revision : Action σ _).IsQuery := by
  refine (isQuery_ask _ _).bind fun output => ?_
  dsimp only
  split
  · exact .throw _
  · exact .pure _

lemma isQuery_mergeBase (repository : Path) (base head : String) :
    (mergeBase repository base head : Action σ _).IsQuery :=
  (isQuery_ask _ _).bind fun _ => .pure _

lemma isQuery_messageOf (repository : Path) (revision : String) :
    (messageOf repository revision : Action σ _).IsQuery :=
  (isQuery_ask _ _).bind fun _ => .pure _

lemma isQuery_changedFiles (repository : Path) (base head : String) :
    (changedFiles repository base head : Action σ _).IsQuery :=
  (isQuery_mergeBase _ _ _).bind fun _ => (isQuery_ask _ _).bind fun _ => .ofExcept _

end Repository

namespace Job

lemma isQuery_checkMessage (job : Job) (limit : Nat) :
    (job.checkMessage limit : Action σ Unit).IsQuery :=
  (Repository.isQuery_messageOf _ _).bind fun _ => .ofExcept _

lemma isQuery_classify (job : Job) (c : Config) : (job.classify c : Action σ _).IsQuery :=
  (Repository.isQuery_changedFiles _ _ _).bind fun _ =>
    (IsQuery.ofExcept _).bind fun _ => (IsQuery.log _).bind fun _ => .pure _

lemma answersAlike_of_resolve {request : Request} {names : List String} {w u : World σ} {job : Job}
    (h : (resolve request names).perform w = (.ok job, u)) :
    w.AnswersAlike u ∧ job.repository = request.repository := by
  obtain ⟨sha, v, hs, h⟩ := perform_bind_ok h
  obtain ⟨origin, x, ho, h⟩ := perform_bind_ok h
  obtain ⟨bits, y, hd, h⟩ := perform_bind_ok h
  obtain ⟨now, _, hn, h⟩ := perform_bind_ok h
  have hy : y = { x with drawn := x.drawn + 1 } := (congrArg Prod.snd hd).symm
  simp only [perform_get, perform_pure, Prod.mk.injEq, Except.ok.injEq] at hn h
  obtain ⟨rfl, rfl⟩ := hn
  obtain ⟨rfl, rfl⟩ := h
  have hw := (Repository.isQuery_commitOf request.repository request.head).keeps w
  have hv := (Repository.isQuery_mergeBase request.repository request.base sha).keeps v
  rw [hs] at hw
  rw [ho] at hv
  exact ⟨(hw.trans hv).trans (hy ▸ ⟨rfl, rfl, rfl⟩), rfl⟩

lemma answer_examine {c : Config} {request : Request} {w u : World σ} {table : ToolTable}
    {job : Job} (ht : c.toolTable = .ok table)
    (hr : (resolve request table.names).perform w = (.ok job, u)) :
    (examine c request).answer w = (do
      (job.checkMessage c.commit.maxLineLength).answer w
      let changes ← (job.classify c).answer w
      pure ⟨table.tools, job, u.now, changes⟩) := by
  have hu := (answersAlike_of_resolve hr).1
  have hrest : (do
      Action.log (.jobStarted job.id job.headSha job.pr)
      job.checkMessage c.commit.maxLineLength
      let changes ← job.classify c
      pure ⟨table.tools, job, u.now, changes⟩ : Action σ Examined).answer u = (do
        (job.checkMessage c.commit.maxLineLength).answer w
        let changes ← (job.classify c).answer w
        pure ⟨table.tools, job, u.now, changes⟩) := by
    have hclassify : ∀ x : Unit, (do
        let changes ← job.classify c
        pure ⟨table.tools, job, u.now, changes⟩ : Action σ Examined).IsQuery :=
      fun _ => (isQuery_classify job c).bind fun _ => .pure _
    have hmessage := isQuery_checkMessage (σ := σ) job c.commit.maxLineLength
    rw [IsQuery.answer_bind (.log _) fun _ => hmessage.bind hclassify,
      IsQuery.answer_bind hmessage hclassify, hmessage.answer_eq hu,
      IsQuery.answer_bind (isQuery_classify job c) fun _ => .pure _,
      (isQuery_classify job c).answer_eq hu]
    rfl
  rw [← hrest, answer, examine, perform_bind, ht, perform_ofExcept]
  dsimp only
  rw [perform_bind, hr]
  rfl

end Job

end Premerge
