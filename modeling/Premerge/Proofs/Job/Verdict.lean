import Premerge.Proofs.Run.Deadline

namespace Premerge

open Premerge.World

variable {σ : Type}

namespace Tool

def Decides (tool : Tool) : Prop :=
  tool.policy = .fatal ∨ tool.kind = .migrationCheck

instance (tool : Tool) : Decidable tool.Decides :=
  inferInstanceAs (Decidable (_ ∨ _))

lemma effectivePolicy_eq_fatal {tool : Tool} : tool.effectivePolicy = .fatal ↔ tool.Decides := by
  unfold effectivePolicy Decides
  split
  next hk => simp [hk]
  next hk => simp [hk]

def blame (tool : Tool) (reason : String) : Failure :=
  if tool.kind = .migrationCheck then .migration tool.name reason else .tool tool.name reason

def violation? (tool : Tool) (status : ToolStatus) : Option Failure :=
  if tool.Decides then
    match status with
    | .finished code => if code = 0 then none else some (tool.blame ("exited with code " ++ toString code))
    | .errored message => some (tool.blame message)
    | .skipped _ | .aborted => none
  else none

lemma skipped_or_finished {tool : Tool} {o : Outcome} (hd : tool.Decides)
    (ha : o.isAborted = false) (h : tool.violation? o.status = none) :
    (∃ reason, o.status = .skipped reason) ∨ o.status = .finished 0 := by
  unfold violation? at h
  rw [if_pos hd] at h
  cases hs : o.status with
  | skipped reason => exact .inl ⟨reason, rfl⟩
  | finished code =>
    rw [hs] at h
    by_cases hc : code = 0
    · exact .inr (by rw [hc])
    · simp [hc] at h
  | errored message => simp [hs] at h
  | aborted => simp [Outcome.isAborted, hs] at ha

end Tool

namespace Outcome

lemma violation_eq {tool : Tool} {o : Outcome} (h : o.IsOf tool) :
    o.violation = tool.blame (o.failureReason?.getD "failed") := by
  unfold violation Tool.blame
  rw [h.kind, h.toolName]
  cases tool.kind <;> rfl

lemma violation?_eq {tool : Tool} {o : Outcome} (h : o.IsOf tool) :
    tool.violation? o.status = if o.isFatalFailure then some o.violation else none := by
  by_cases hd : tool.Decides
  · have hp : o.policy = .fatal := h.policy.trans (Tool.effectivePolicy_eq_fatal.mpr hd)
    rw [violation_eq h]
    unfold Tool.violation? isFatalFailure failed passed isAborted failureReason?
    rw [if_pos hd, hp]
    cases o.status with
    | finished code => by_cases hc : code = 0 <;> simp [hc]
    | _ => simp
  · have hp : o.policy ≠ .fatal := fun hf =>
      hd (Tool.effectivePolicy_eq_fatal.mp (h.policy.symm.trans hf))
    simp [Tool.violation?, isFatalFailure, hd, hp]

end Outcome

namespace Verdict

lemma causes_eq {tools : List Tool} {outcomes : List Outcome}
    (h : List.Forall₂ (fun tool o => o.IsOf tool) tools outcomes) (seconds : Option Nat) :
    causes outcomes seconds =
      (tools.zip outcomes).filterMap (fun pair => pair.1.violation? pair.2.status) ++
        (seconds.map fun seconds => Failure.deadline seconds (abortedNames outcomes)).toList := by
  unfold causes
  congr 1
  induction h with
  | nil => rfl
  | @cons tool o tools outcomes ho _ ih =>
    rw [List.zip_cons_cons, List.filterMap_cons, Outcome.violation?_eq ho, ← ih, List.filter_cons]
    cases o.isFatalFailure <;> rfl

lemma passed_ofOutcomes {outcomes : List Outcome} {seconds : Option Nat} :
    (ofOutcomes outcomes seconds).passed = true ↔ causes outcomes seconds = [] := by
  simp [ofOutcomes]

lemma violations_ofOutcomes (outcomes : List Outcome) (seconds : Option Nat) :
    (ofOutcomes outcomes seconds).violations = (causes outcomes seconds).map Failure.message := rfl

lemma causes_eq_nil_iff {c : Config} {tools : List Tool} {outcomes : List Outcome}
    {exceeded : Bool} (h : List.Forall₂ (fun tool o => o.IsOf tool) tools outcomes)
    (hd : exceeded = true ↔ ∃ o ∈ outcomes, o.isAborted = true) :
    causes outcomes (Job.deadlineOf c exceeded) = [] ↔
      exceeded = false ∧ ∀ pair ∈ tools.zip outcomes, pair.1.Decides →
        (∃ reason, pair.2.status = .skipped reason) ∨ pair.2.status = .finished 0 := by
  rw [causes_eq h, List.append_eq_nil_iff, List.filterMap_eq_nil_iff]
  cases exceeded with
  | true => simp [Job.deadlineOf]
  | false =>
    constructor
    · rintro ⟨hv, _⟩
      refine ⟨rfl, fun pair hm hp => ?_⟩
      have ha : pair.2.isAborted = false := by
        by_contra ha
        exact absurd (hd.mpr ⟨pair.2, (List.of_mem_zip hm).2, by simpa using ha⟩) (by simp)
      exact Tool.skipped_or_finished hp ha (hv pair hm)
    · rintro ⟨_, hs⟩
      refine ⟨fun pair hm => ?_, rfl⟩
      by_cases hp : pair.1.Decides
      · rcases hs pair hm hp with ⟨reason, hs⟩ | hs <;> simp [Tool.violation?, hs]
      · simp [Tool.violation?, hp]

end Verdict

/-- Two outcomes that are the same for the job: those of tools that do not decide it, unless the
deadline cut one of them off. -/
def Outcome.SameForJob (o other : Outcome) : Prop :=
  other = o ∨ o.policy = .advisory ∧ other.policy = .advisory ∧ o.isAborted = false ∧
    other.isAborted = false

lemma Verdict.causes_congr {outcomes others : List Outcome}
    (h : List.Forall₂ Outcome.SameForJob outcomes others) (seconds : Option Nat) :
    causes others seconds = causes outcomes seconds := by
  have hf : others.filter Outcome.isFatalFailure = outcomes.filter Outcome.isFatalFailure ∧
      abortedNames others = abortedNames outcomes := by
    induction h with
    | nil => exact ⟨rfl, rfl⟩
    | @cons o other outcomes others ho _ ih =>
      unfold abortedNames at ih ⊢
      rcases ho with rfl | ⟨hp, hp', ha, ha'⟩
      · simp only [List.filter_cons, ih.1]
        split <;> simp [ih.2]
      · have hn : o.isFatalFailure = false := by simp [Outcome.isFatalFailure, hp]
        have hn' : other.isFatalFailure = false := by simp [Outcome.isFatalFailure, hp']
        simp [hn, hn', ha, ha', ih.1, ih.2]
  rw [causes, causes, hf.1, hf.2]

lemma Verdict.ofOutcomes_congr {outcomes others : List Outcome}
    (h : List.Forall₂ Outcome.SameForJob outcomes others) (seconds : Option Nat) :
    (ofOutcomes others seconds).passed = (ofOutcomes outcomes seconds).passed ∧
      (ofOutcomes others seconds).violations = (ofOutcomes outcomes seconds).violations := by
  simp only [ofOutcomes, causes_congr h, and_self]

end Premerge
