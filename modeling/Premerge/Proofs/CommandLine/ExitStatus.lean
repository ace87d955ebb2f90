import Premerge.CommandLine.Perform
import Premerge.Proofs.Job.Verdict

namespace Premerge

open Premerge.World

variable {σ : Type}

namespace CommandLine

lemma Task.run_bind {α β : Type} (t : Task σ α) (f : α → Task σ β) (w : World σ) :
    (t >>= f).run.run w =
      match t.run.run w with
      | (.ok x, v) => (f x).run.run v
      | (.error complaint, v) => (.error complaint, v) := by
  simp only [bind, ExceptT.bind, ExceptT.run, ExceptT.mk, StateT.bind, StateT.run]
  rcases t w with ⟨x | x, v⟩ <;> rfl

lemma Task.run_ofAction {α : Type} (tell : Failure → Complaint) (a : Action σ α) (w : World σ) :
    (Task.ofAction tell a).run.run w =
      match a.perform w with
      | (.ok x, v) => (.ok x, v)
      | (.error e, v) => (.error (tell e), v) := by
  have hl : (ExceptT.lift a.run : Task σ _).run.run w = (.ok (a.perform w).1, (a.perform w).2) := rfl
  rw [Task.ofAction, run_bind, hl]
  rcases a.perform w with ⟨e | x, v⟩ <;> rfl

lemma run_loadConfig (path : Option Path) (repository : Path) (w : World σ) :
    (loadConfig path repository).run.run w =
      match Config.loadOrStandard w.files path repository with
      | .ok c => (.ok c, w)
      | .error e => (.error (.inContext "Failed to load pipeline configuration" e), w) := by
  have hg : (get : Task σ (World σ)).run.run w = (.ok w, w) := rfl
  rw [loadConfig, Task.run_bind, hg]
  dsimp only
  rw [Task.run_ofAction, Action.perform_ofExcept]
  rcases Config.loadOrStandard w.files path repository with e | c <;> rfl

def composition (c : Config) (request : Request) : Composition :=
  ⟨c.services.composeFile, c.services.projectName, some request.repository⟩

lemma run_performRun (request : Request) (path : Option Path) (asData : Bool) (w : World σ) :
    ∃ printed : JobReport → String, ∃ complaint : Failure → Complaint,
      (performRun request path asData).run.run w =
        match Config.loadOrStandard w.files path request.repository with
        | .error e => (.error (.inContext "Failed to load pipeline configuration" e), w)
        | .ok c =>
          match (c.run (composition c request).runtime request).perform
              (w.log (.validationStarted request.repository request.base request.head)) with
          | (.ok report, v) => (.ok ⟨printed report,
              if report.success then none else some ⟨"Validation failed", []⟩⟩, v)
          | (.error e, v) => (.error (complaint e), v) := by
  refine ⟨fun report => if asData then Data.Json.pretty report.toValue ++ "\n" else reportText report,
    .inContext "Validation aborted", ?_⟩
  rw [performRun, Task.run_bind, run_loadConfig]
  rcases Config.loadOrStandard w.files path request.repository with e | c
  · rfl
  · have hm : (modify fun u : World σ =>
        u.log (.validationStarted request.repository request.base request.head) : Task σ Unit).run.run w =
          (.ok (), w.log (.validationStarted request.repository request.base request.head)) := rfl
    dsimp only
    rw [Task.run_bind, hm]
    dsimp only
    rw [Task.run_bind, Task.run_ofAction, composition]
    rcases Action.perform _ _ with ⟨e | report, v⟩ <;> rfl

lemma status_run_eq_zero_iff (request : Request) (path : Option Path)
    (asData verbose logAsData : Bool) (w : World σ) :
    (Invocation.execute ⟨.run request path asData, verbose, logAsData⟩ w).1.status = 0 ↔
      ∃ c report v, Config.loadOrStandard w.files path request.repository = .ok c ∧
        (c.run (composition c request).runtime request).perform
          (w.log (.validationStarted request.repository request.base request.head)) =
            (.ok report, v) ∧ report.success = true := by
  obtain ⟨printed, complaint, hr⟩ := run_performRun request path asData w
  rw [Invocation.execute, Command.perform, hr]
  rcases Config.loadOrStandard w.files path request.repository with e | c
  · simp
  · rcases hc : (c.run (composition c request).runtime request).perform
      (w.log (.validationStarted request.repository request.base request.head)) with ⟨e | report, v⟩
    · simp [hc]
    · cases hs : report.success <;> simp [hc, hs, Exit.ofPrinted]

end CommandLine

open CommandLine

/-- What a report says of the tools of its job, and when the command line exits with zero. -/
theorem verdict_of_run (σ : Type) :
    (∀ (c : Config) (runtime : Runtime σ) (request : Request) (w v : World σ) (report : JobReport),
      (c.run runtime request).perform w = (.ok report, v) →
        List.Forall₂ (fun tool o => o.IsOf tool) c.tools report.outcomes ∧
        (report.success = true ↔ report.deadlineExceeded = false ∧
          ∀ pair ∈ c.tools.zip report.outcomes, pair.1.Decides →
            (∃ reason, pair.2.status = .skipped reason) ∨ pair.2.status = .finished 0) ∧
        report.verdict.violations =
          ((c.tools.zip report.outcomes).filterMap fun pair =>
            (pair.1.violation? pair.2.status).map Failure.message) ++
          (if report.deadlineExceeded then
            [(Failure.deadline c.jobTimeoutSecs
              (Verdict.namesCutOff c.tools report.outcomes)).message]
          else []) ∧
        ∀ others, List.Forall₂ Outcome.SameForJob report.outcomes others →
          let verdict := Verdict.ofOutcomes others (Job.deadlineOf c report.deadlineExceeded)
          verdict.passed = report.success ∧ verdict.violations = report.verdict.violations) ∧
    ∀ (request : Request) (path : Option Path) (asData verbose logAsData : Bool) (w : World σ),
      (Invocation.execute ⟨.run request path asData, verbose, logAsData⟩ w).1.status = 0 ↔
        ∃ c report v, Config.loadOrStandard w.files path request.repository = .ok c ∧
          (c.run (composition c request).runtime request).perform
            (w.log (.validationStarted request.repository request.base request.head)) =
              (.ok report, v) ∧ report.success = true := by
  refine ⟨fun c runtime request w v report h => ?_, status_run_eq_zero_iff⟩
  obtain ⟨place, u, ho, hd, hv, hs⟩ := Config.report_of_run h
  have hof := place.isOf_runTools c.parallelTools (some (u.now + c.jobTimeoutMs)) c.tools u
  have hex := place.exceeded_runTools_iff c.parallelTools (some (u.now + c.jobTimeoutMs)) c.tools u
  rw [← ho] at hof hex
  rw [← ho, ← hd] at hv
  rw [← hd] at hex
  refine ⟨hof, ?_, ?_, fun others hsame => ?_⟩
  · rw [hs, hv, Verdict.passed_ofOutcomes, Verdict.causes_eq_nil_iff hof hex]
  · rw [hv, Verdict.violations_ofOutcomes, Verdict.causes_eq hof, Verdict.abortedNames_eq hof,
      Job.deadlineOf, List.map_append, List.map_filterMap]
    cases report.deadlineExceeded <;> rfl
  · rw [hs, hv]
    exact Verdict.ofOutcomes_congr hsame _

def gatePrograms : Programs := fun call =>
  match call.name with
  | "git" => some ⟨if call.arguments.head? = some "diff" then []
      else [.write .output [97, 10]], .exit 0, 0⟩
  | "lint" => some ⟨[.write .output [108, 10], .pause 10], .exit 0, 0⟩
  | "migrate" => some ⟨[.pause 5], .exit 2, 0⟩
  | "test" => some ⟨[.write .errors [116, 10], .pause 5], .exit 1, 0⟩
  | _ => none

def gateWorld : World Unit where
  files := ⟨[(["work"], .directory)], ["work"]⟩
  programs := gatePrograms
  environment := .empty
  now := 0
  epoch := ⟨0, 0⟩
  draws := fun _ => 0
  drawn := 0
  givenUpAfter := 0
  checksAtOnce := 1
  past := []
  services := ()

def gateConfig : Config :=
  { Config.standard with
    services := { ServicesConfig.standard with required := [] }
    tools := [(Tool.ofCommand "lint" ["lint"]).fatal,
      (Tool.ofCommand "migrations" ["migrate"]).withKind .migrationCheck,
      Tool.ofCommand "tests" ["test"]] }

def gateRequest : Request := ⟨".", "main", "HEAD", none, "reports", none⟩

theorem verdict_of_run_gate :
    ∃ report v, (gateConfig.run (composition gateConfig gateRequest).runtime gateRequest).perform
        gateWorld = (.ok report, v) ∧
      (report.success = true ↔ report.deadlineExceeded = false ∧
        ∀ pair ∈ gateConfig.tools.zip report.outcomes, pair.1.Decides →
          (∃ reason, pair.2.status = .skipped reason) ∨ pair.2.status = .finished 0) := by
  have hok : ((gateConfig.run (composition gateConfig gateRequest).runtime gateRequest).perform
      gateWorld).1.isOk = true := by decide +kernel
  rcases h : (gateConfig.run (composition gateConfig gateRequest).runtime gateRequest).perform
    gateWorld with ⟨e | report, v⟩ <;> rw [h] at hok
  · cases hok
  · exact ⟨report, v, rfl, ((verdict_of_run Unit).1 _ _ _ _ _ _ h).2.1⟩

end Premerge
