import Premerge.Proofs.CommandLine.ExitStatus
import Premerge.Proofs.Job.Queries

/-! The commands that look at a message or at changes alone come to what a job comes to. They ask
about a revision where the job asks about the commit that it names, and about the base of a change
where the job asks about the commit from which the two went apart. -/

namespace Premerge

open Premerge.Action (IsQuery)
open Premerge.Change (ChangeSet)
open Premerge.Data
open Premerge.Text.Utf8 (Octets decode)
open Premerge.World

variable {σ : Type}

namespace Repository

/-- A revision and the commit that it names are answered alike, and the commit from which the base
and the head went apart is also the one from which it and the head itself did. -/
structure IsCoherent (w : World σ) (repository : Path) (base head sha origin : String) : Prop where
  log : ((ask repository ["log", "--format=%B", "-n", "1", head]).answer w).toOption =
    ((ask repository ["log", "--format=%B", "-n", "1", sha]).answer w).toOption
  diff : ((ask repository ["diff", "--name-status", "-z", "-M", origin, head]).answer w).toOption =
    ((ask repository ["diff", "--name-status", "-z", "-M", origin, sha]).answer w).toOption
  mergeBase : (mergeBase repository base head).answer w = .ok origin
  mergeBase_again : (Repository.mergeBase repository origin sha).answer w = .ok origin

lemma answer_messageOf (repository : Path) (revision : String) (w : World σ) :
    (messageOf repository revision).answer w =
      (ask repository ["log", "--format=%B", "-n", "1", revision]).answer w >>=
        fun output => .ok (decode output) :=
  IsQuery.answer_bind (isQuery_ask _ _) (fun _ => .pure _) w

lemma answer_changedFiles {repository : Path} {base head origin : String} {w : World σ}
    (h : (mergeBase repository base head).answer w = .ok origin) :
    (changedFiles repository base head).answer w =
      (ask repository ["diff", "--name-status", "-z", "-M", origin, head]).answer w >>=
        fun output => Change.NameStatus.read (decode output) := by
  rw [changedFiles, IsQuery.answer_bind (isQuery_mergeBase _ _ _)
    (fun _ => (isQuery_ask _ _).bind fun _ => .ofExcept _), h]
  refine (IsQuery.answer_bind (isQuery_ask _ _) (fun _ => .ofExcept _) w).trans ?_
  exact congrArg _ (funext fun output => congrArg Prod.fst (Action.perform_ofExcept _ w))

lemma toOption_bind_congr {α β : Type} {a b : Except Failure α} (h : a.toOption = b.toOption)
    (f : α → Except Failure β) : (a >>= f).toOption = (b >>= f).toOption := by
  rcases a with e | x <;> rcases b with e' | y <;> cases h <;> rfl

namespace IsCoherent

variable {w : World σ} {repository : Path} {base head sha origin : String}
  (h : IsCoherent w repository base head sha origin)

include h

lemma toOption_messageOf : ((messageOf repository head).answer w).toOption =
    ((messageOf repository sha).answer w).toOption := by
  rw [answer_messageOf, answer_messageOf]
  exact toOption_bind_congr h.log _

lemma toOption_changedFiles : ((changedFiles repository base head).answer w).toOption =
    ((changedFiles repository origin sha).answer w).toOption := by
  rw [answer_changedFiles h.mergeBase, answer_changedFiles h.mergeBase_again]
  exact toOption_bind_congr h.diff _

end IsCoherent

end Repository

lemma eq_ok_or_error_of_toOption {α : Type} {a b : Except Failure α}
    (h : a.toOption = b.toOption) :
    (∃ x, a = .ok x ∧ b = .ok x) ∨ ∃ e e', a = .error e ∧ b = .error e' := by
  rcases a with e | x <;> rcases b with e' | y <;> cases h
  · exact .inr ⟨e, e', rfl, rfl⟩
  · exact .inl ⟨x, rfl, rfl⟩

namespace Job

lemma answer_checkMessage (job : Job) (limit : Nat) (w : World σ) :
    (job.checkMessage limit).answer w =
      (Repository.messageOf job.repository job.headSha).answer w >>=
        fun text => (CommitMessage.ofText text).check limit := by
  refine (IsQuery.answer_bind (Repository.isQuery_messageOf _ _) (fun _ => .ofExcept _) w).trans ?_
  exact congrArg _ (funext fun text => congrArg Prod.fst (Action.perform_ofExcept _ w))

lemma answer_classify (job : Job) (c : Config) (w : World σ) :
    (job.classify c).answer w =
      (Repository.changedFiles job.repository job.mergeBase job.headSha).answer w >>=
        fun files => ChangeSet.classify files c.predicates := by
  refine (IsQuery.answer_bind (Repository.isQuery_changedFiles _ _ _) (fun _ =>
    (IsQuery.ofExcept _).bind fun _ => (IsQuery.log _).bind fun _ => .pure _) w).trans ?_
  refine congrArg _ (funext fun files => ?_)
  rw [Action.answer, Action.perform_bind, Action.perform_ofExcept]
  cases ChangeSet.classify files c.predicates <;> rfl

lemma answer_prepare_error {c : Config} {request : Request} {w : World σ} {e : Failure}
    (h : (examine c request).answer w = .error e) : (prepare c request).answer w = .error e := by
  rw [prepare_eq, Action.answer, Action.perform_bind]
  rcases hp : (examine c request).perform w with ⟨result, v⟩
  rw [Action.answer, hp] at h
  cases h
  rfl

lemma answer_prepare_ok {c : Config} {request : Request} {w : World σ} {known : Examined}
    (h : (examine c request).answer w = .ok known) :
    (∃ prepared, (prepare c request).answer w = .ok prepared ∧
      prepared.place.changes = known.changes) ∨
    ∃ e, (prepare c request).answer w = .error e ∧ e.IsOfReports := by
  rw [prepare_eq, Action.answer, Action.perform_bind]
  rcases hp : (examine c request).perform w with ⟨result, v⟩
  rw [Action.answer, hp] at h
  cases h
  dsimp only
  rw [Action.perform_bind]
  rcases ho : (openReports known.job request).perform v with ⟨e | reports, x⟩
  · exact .inr ⟨e, rfl, failsOnly_openReports known.job request v x e ho⟩
  · exact .inl ⟨_, rfl, rfl⟩

end Job

lemma Config.answer_run_error {c : Config} {request : Request} {w : World σ} {e : Failure}
    (h : (Job.prepare c request).answer w = .error e) (runtime : Runtime σ) :
    (c.run runtime request).answer w = .error e := by
  rw [Action.answer, perform_run]
  rcases hp : (Job.prepare c request).perform w with ⟨result, v⟩
  rw [Action.answer, hp] at h
  cases h
  rfl

lemma Config.answer_run_ne_longLines {c : Config} {request : Request} {w : World σ}
    {prepared : Job.Prepared} (h : (Job.prepare c request).answer w = .ok prepared)
    {runtime : Runtime σ} (hr : ∀ service e, runtime.CanFail service e → e.isOfServices = true)
    (limit : Nat) (lines : List LongLine) :
    (c.run runtime request).answer w ≠ .error (.longLines limit lines) := by
  intro hrun
  rw [Action.answer, perform_run] at hrun
  rcases hp : (Job.prepare c request).perform w with ⟨result, v⟩
  rw [Action.answer, hp] at h
  rw [hp] at hrun
  cases h
  dsimp only at hrun
  have hknown : ∀ name ∈ c.services.names, name ∈ c.services.required.map Service.name :=
    fun _ hm => hm
  rcases hs : (Session.start runtime (Job.patience c) c.services.required
    c.services.names).perform v with ⟨e | session, u⟩ <;> rw [hs] at hrun
  · cases hrun
    obtain ⟨service, _, he | hfail⟩ := Session.failsOnly_start runtime _ hknown v u _ hs
    · cases he
    · cases hr service _ hfail
  · dsimp only at hrun
    generalize hx : (Job.conclude c request prepared.job prepared.began prepared.place.reports
      (prepared.place.runTools c.parallelTools (some (u.now + c.jobTimeoutMs)) c.tools u).1).perform
        ((Job.stopServices runtime session).perform
          (prepared.place.runTools c.parallelTools (some (u.now + c.jobTimeoutMs)) c.tools u).2).2
        = concluded at hrun
    obtain ⟨result, x⟩ := concluded
    cases hrun
    cases (Job.failed_conclude hx).1

namespace CommandLine

lemma answer_performCheckCommit {repository : Path} {head : String} {path : Option Path}
    {w : World σ} {c : Config} (h : Config.loadOrStandard w.files path repository = .ok c) :
    ((performCheckCommit repository head path none).run.run w).1 =
      match (Repository.messageOf repository head).answer w with
      | .error e => .error (.inContext ("Failed to read commit message of " ++ head) e)
      | .ok text =>
        match (CommitMessage.ofText text).check c.commit.maxLineLength with
        | .error e => .error (.ofFailure e)
        | .ok () => .ok (printed (goodMark ++ " Commit message lines are at most " ++
            toString c.commit.maxLineLength ++ " characters\n")) := by
  rw [performCheckCommit, Task.run_bind, run_loadConfig, h]
  dsimp only
  rw [pure_bind]
  rw [Task.run_bind, Task.run_ofAction, Action.answer]
  rcases (Repository.messageOf repository head).perform w with ⟨e | text, v⟩
  · rfl
  dsimp only
  rw [Task.run_bind, Task.run_ofAction, Action.perform_ofExcept]
  cases (CommitMessage.ofText text).check c.commit.maxLineLength <;> rfl

lemma answer_performClassify {repository : Path} {base head : String} {path : Option Path}
    {w : World σ} {c : Config} (h : Config.loadOrStandard w.files path repository = .ok c) :
    ((performClassify repository base head path).run.run w).1 =
      match (Repository.changedFiles repository base head).answer w with
      | .error e => .error (.inContext "Failed to diff" e)
      | .ok files =>
        match ChangeSet.classify files c.predicates with
        | .error e => .error (.ofFailure e)
        | .ok changes => .ok (printed (Json.pretty changes.toValue ++ "\n")) := by
  rw [performClassify, Task.run_bind, run_loadConfig, h]
  dsimp only
  rw [Task.run_bind, Task.run_ofAction, Action.answer]
  rcases (Repository.changedFiles repository base head).perform w with ⟨e | files, v⟩
  · rfl
  dsimp only
  rw [Task.run_bind, Task.run_ofAction, Action.perform_ofExcept]
  cases ChangeSet.classify files c.predicates <;> rfl

lemma inContext_ne_longLines (context : String) (e : Failure) (limit : Nat)
    (lines : List LongLine) : Complaint.inContext context e ≠ .ofFailure (.longLines limit lines) := by
  intro h
  cases congrArg Complaint.causes h

end CommandLine

open CommandLine

lemma Job.classify_of_prepare {c : Config} {request : Request} {w u : World σ} {table : ToolTable}
    {job : Job} (ht : c.toolTable = .ok table)
    (hr : (resolve request table.names).perform w = (.ok job, u)) {prepared : Prepared}
    (h : (prepare c request).answer w = .ok prepared) :
    (job.classify c).answer w = .ok prepared.place.changes := by
  have hexamine := answer_examine ht hr
  rcases hx : (examine c request).answer w with e | known
  · cases (answer_prepare_error hx).symm.trans h
  rcases answer_prepare_ok hx with ⟨other, ho, hchanges⟩ | ⟨e, he, _⟩
  · cases ho.symm.trans h
    rw [hx] at hexamine
    rcases hm : (job.checkMessage c.commit.maxLineLength).answer w with e | ⟨⟩ <;>
      rw [hm] at hexamine
    · cases hexamine
    rcases hc : (job.classify c).answer w with e | changes <;> rw [hc] at hexamine
    · cases hexamine
    · cases hexamine
      rw [hchanges]
  · cases he.symm.trans h

lemma Job.answer_run_longLines_iff {c : Config} {request : Request} {w u : World σ}
    {table : ToolTable} {job : Job} (ht : c.toolTable = .ok table)
    (hr : (resolve request table.names).perform w = (.ok job, u)) {runtime : Runtime σ}
    (hout : ∀ service e, runtime.CanFail service e → e.isOfServices = true) {limit : Nat}
    {lines : List LongLine} :
    (c.run runtime request).answer w = .error (.longLines limit lines) ↔
      (job.checkMessage c.commit.maxLineLength).answer w = .error (.longLines limit lines) := by
  have hexamine := answer_examine ht hr
  rcases hm : (job.checkMessage c.commit.maxLineLength).answer w with e | ⟨⟩ <;>
    rw [hm] at hexamine
  · rw [Config.answer_run_error (answer_prepare_error hexamine), Except.error.injEq,
      Except.error.injEq]
  refine ⟨fun hrun => ?_, fun h => by cases h⟩
  rcases hc : (job.classify c).answer w with e | changes <;> rw [hc] at hexamine
  · cases (Config.answer_run_error (answer_prepare_error hexamine) runtime).symm.trans hrun
    rcases (failsOnly_classify job c).answer hc with ⟨_, he⟩ | ⟨_, he, _⟩ <;> cases he
  rcases answer_prepare_ok hexamine with ⟨prepared, hp, _⟩ | ⟨e, hp, he⟩
  · exact absurd hrun (Config.answer_run_ne_longLines hp hout limit lines)
  · cases (Config.answer_run_error hp runtime).symm.trans hrun
    rcases he with ⟨_, he⟩ | ⟨_, he⟩ <;> cases he

/-- The command for changes prints the change set of the job, or both fail over it; the command for
a message complains about the lines that the job complains about. -/
theorem Job.commands_agree {c : Config} {request : Request} {path : Option Path} {w u : World σ}
    {table : ToolTable} {job : Job}
    (hc : Config.loadOrStandard w.files path request.repository = .ok c)
    (ht : c.toolTable = .ok table)
    (hr : (Job.resolve request table.names).perform w = (.ok job, u))
    (hg : Repository.IsCoherent w request.repository request.base request.head job.headSha
      job.mergeBase) :
    let classified := ((performClassify request.repository request.base request.head path).run.run w).1
    let checked := ((performCheckCommit request.repository request.head path none).run.run w).1
    (∀ prepared, (Job.prepare c request).answer w = .ok prepared →
      classified = .ok (printed (Json.pretty prepared.place.changes.toValue ++ "\n"))) ∧
    ((∃ changes, (job.classify c).answer w = .ok changes ∧
        classified = .ok (printed (Json.pretty changes.toValue ++ "\n"))) ∨
      ∃ e complaint, (job.classify c).answer w = .error e ∧ classified = .error complaint ∧
        (complaint = .ofFailure e ∨ ∃ other : Failure, e.IsOfGit ∧ other.IsOfGit ∧
          complaint = .inContext "Failed to diff" other) ∧
        ((job.checkMessage c.commit.maxLineLength).answer w = .ok () →
          ∀ runtime, (c.run runtime request).answer w = .error e)) ∧
    ∀ runtime : Runtime σ, (∀ service e, runtime.CanFail service e → e.isOfServices = true) →
      (∃ limit lines, (c.run runtime request).answer w = .error (.longLines limit lines) ∧
        checked = .error (.ofFailure (.longLines limit lines))) ∨
      ∀ limit lines, (c.run runtime request).answer w ≠ .error (.longLines limit lines) ∧
        checked ≠ .error (.ofFailure (.longLines limit lines)) := by
  intro classified checked
  have hrepository := (Job.answersAlike_of_resolve hr).2
  have hexamine := Job.answer_examine ht hr
  have hclassify : (∃ changes, (job.classify c).answer w = .ok changes ∧
        classified = .ok (printed (Json.pretty changes.toValue ++ "\n"))) ∨
      ∃ e complaint, (job.classify c).answer w = .error e ∧ classified = .error complaint ∧
        (complaint = .ofFailure e ∨ ∃ other : Failure, e.IsOfGit ∧ other.IsOfGit ∧
          complaint = .inContext "Failed to diff" other) := by
    simp only [classified]
    rw [Job.answer_classify, hrepository, answer_performClassify hc]
    rcases eq_ok_or_error_of_toOption hg.toOption_changedFiles with ⟨files, hf, hj⟩ |
      ⟨e, e', hf, hj⟩ <;> rw [hf, hj]
    · dsimp only [bind, Except.bind]
      cases ChangeSet.classify files c.predicates with
      | error e => exact .inr ⟨e, _, rfl, rfl, .inl rfl⟩
      | ok changes => exact .inl ⟨changes, rfl, rfl⟩
    · exact .inr ⟨e', _, rfl, rfl, .inr ⟨e, (Repository.failsOnly_changedFiles _ _ _).answer hj,
        (Repository.failsOnly_changedFiles _ _ _).answer hf, rfl⟩⟩
  refine ⟨fun prepared hp => ?_, ?_, fun runtime hout => ?_⟩
  · rcases hclassify with ⟨changes, hj, hprinted⟩ | ⟨e, _, hj, _⟩
    · cases (Job.classify_of_prepare ht hr hp).symm.trans hj
      exact hprinted
    · cases (Job.classify_of_prepare ht hr hp).symm.trans hj
  · refine hclassify.imp_right fun ⟨e, complaint, hj, hfail, hwhy⟩ =>
      ⟨e, complaint, hj, hfail, hwhy, fun hm runtime => ?_⟩
    rw [hm, hj] at hexamine
    exact Config.answer_run_error (Job.answer_prepare_error hexamine) runtime
  · have hmessage := Job.answer_checkMessage job c.commit.maxLineLength w
    simp only [ne_eq, Job.answer_run_longLines_iff ht hr hout, checked]
    rw [hmessage, hrepository, answer_performCheckCommit hc]
    rcases eq_ok_or_error_of_toOption hg.toOption_messageOf with ⟨text, hf, hj⟩ |
      ⟨e, e', hf, hj⟩ <;> rw [hf, hj]
    · dsimp only [bind, Except.bind]
      rcases hcheck : (CommitMessage.ofText text).check c.commit.maxLineLength with e | ⟨⟩
      · obtain ⟨lines, rfl⟩ := CommitMessage.eq_of_check hcheck
        exact .inl ⟨_, lines, rfl, rfl⟩
      · exact .inr fun limit lines => ⟨fun h => (by cases h), fun h => (by cases h)⟩
    · refine .inr fun limit lines => ⟨fun h => ?_, fun h => ?_⟩
      · obtain ⟨fault, he⟩ := (Repository.failsOnly_messageOf _ _).answer hj
        cases he.symm.trans (Except.error.inj h)
      · exact inContext_ne_longLines _ _ _ _ (Except.error.inj h)

def World.Programs.ofCommit (message changes : Octets) : Programs := fun call =>
  match call.name, call.arguments with
  | "git", "rev-parse" :: _ => some ⟨[.write .output [97, 10]], .exit 0, 0⟩
  | "git", "merge-base" :: _ => some ⟨[.write .output [98, 10]], .exit 0, 0⟩
  | "git", "log" :: _ => some ⟨[.write .output message], .exit 0, 0⟩
  | "git", "diff" :: _ => some ⟨[.write .output changes], .exit 0, 0⟩
  | _, _ => none

def verboseWorld : World Unit :=
  .fresh (Programs.ofCommit (List.replicate 80 120) [77, 0, 97, 46, 112, 121, 0])

theorem commands_agree_verbose :
    ∃ limit lines changes,
      (Config.standard.run (Composition.runtime ⟨none, none, none⟩) (lintRequest none)).answer
        verboseWorld = .error (.longLines limit lines) ∧
      ((performCheckCommit "." "HEAD" none none).run.run verboseWorld).1 =
        .error (.ofFailure (.longLines limit lines)) ∧
      ((performClassify "." "main" "HEAD" none).run.run verboseWorld).1 =
        .ok (printed (Json.pretty (ChangeSet.toValue changes) ++ "\n")) := by
  have hresolve : (do
      let table ← Config.standard.toolTable
      let job ← (Job.resolve (lintRequest none) table.names).answer verboseWorld
      pure (job.headSha, job.mergeBase, ((job.classify Config.standard).answer verboseWorld).isOk) :
        Except Failure (String × String × Bool)) = .ok ("a", "b", true) := by
    decide +kernel
  have hrun : (Config.standard.run (Composition.runtime ⟨none, none, none⟩)
      (lintRequest none)).answer verboseWorld = .error (.longLines 72 [⟨1, 80, String.ofList (List.replicate 80 'x')⟩]) := by
    decide +kernel
  have hload : Config.loadOrStandard verboseWorld.files none "." = .ok Config.standard := by
    decide +kernel
  rcases ht : Config.standard.toolTable with e | table <;> rw [ht] at hresolve
  · cases hresolve
  rcases hr : (Job.resolve (lintRequest none) table.names).perform verboseWorld with ⟨e | job, u⟩ <;>
    simp only [bind, Except.bind, Action.answer, hr] at hresolve
  · cases hresolve
  obtain ⟨hsha, hrest⟩ := Prod.mk.inj (Except.ok.inj hresolve)
  obtain ⟨horigin, hclassified⟩ := Prod.mk.inj hrest
  have hg : Repository.IsCoherent verboseWorld (lintRequest none).repository (lintRequest none).base
      (lintRequest none).head job.headSha job.mergeBase := by
    rw [hsha, horigin]
    constructor <;> decide +kernel
  have hout : ∀ service e, (Composition.runtime ⟨none, none, none⟩ : Runtime Unit).CanFail service e →
      e.isOfServices = true :=
    fun _ _ => (Composition.isOutside_runtime _).isOfServices_of_canFail
  obtain ⟨-, hchanges, hmessage⟩ := Job.commands_agree hload ht hr hg
  rcases hmessage _ hout with ⟨limit, lines, hlines, hchecked⟩ | hnone
  · rcases hchanges with ⟨changes, _, hprinted⟩ | ⟨e, _, hj, _⟩
    · exact ⟨limit, lines, changes, hlines, hchecked, hprinted⟩
    · rw [Action.answer] at hj
      rw [hj] at hclassified
      cases hclassified
  · exact ((hnone _ _).1 hrun).elim

end Premerge
