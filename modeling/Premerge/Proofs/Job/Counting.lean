import Mathlib.Data.List.Forall2
import Premerge.Job.Report
import Premerge.Proofs.Run.Touches

namespace Premerge

lemma Outcome.passed_of_not_ran {o : Outcome} (h : o.ran = false) : o.passed = true := by
  unfold ran at h
  unfold passed
  split at h
  next hs => rw [hs]
  · cases h

lemma Tally.ofOutcomes_cons (o : Outcome) (rest : List Outcome) :
    let tally := ofOutcomes (o :: rest)
    tally.passed + tally.failed + tally.skipped =
      (ofOutcomes rest).passed + (ofOutcomes rest).failed + (ofOutcomes rest).skipped + 1 := by
  cases hr : o.ran with
  | false =>
    have hp := Outcome.passed_of_not_ran hr
    simp [ofOutcomes, Outcome.failed, hr, hp]
    omega
  | true =>
    cases hp : o.passed <;> simp [ofOutcomes, Outcome.failed, hr, hp] <;> omega

lemma Tally.sum_ofOutcomes (outcomes : List Outcome) :
    (ofOutcomes outcomes).passed + (ofOutcomes outcomes).failed + (ofOutcomes outcomes).skipped =
      outcomes.length := by
  induction outcomes with
  | nil => rfl
  | cons o rest ih => rw [ofOutcomes_cons, ih, List.length_cons]

def Failure.isDeadline : Failure → Bool
  | .deadline _ _ => true
  | _ => false

lemma Outcome.isDeadline_violation (o : Outcome) : o.violation.isDeadline = false := by
  unfold violation
  cases o.kind <;> rfl

namespace Verdict

lemma filter_causes (outcomes : List Outcome) (seconds : Option Nat) :
    (causes outcomes seconds).filter Failure.isDeadline =
      (seconds.map fun seconds => Failure.deadline seconds (abortedNames outcomes)).toList := by
  have hv : ((outcomes.filter Outcome.isFatalFailure).map Outcome.violation).filter
      Failure.isDeadline = [] := by
    rw [List.filter_eq_nil_iff]
    intro failure hm
    obtain ⟨o, _, rfl⟩ := List.mem_map.mp hm
    simp [o.isDeadline_violation]
  rw [causes, List.filter_append, hv, List.nil_append]
  cases seconds <;> rfl

def namesCutOff (tools : List Tool) (outcomes : List Outcome) : List String :=
  ((tools.zip outcomes).filter fun pair => pair.2.isAborted).map fun pair => pair.1.name

lemma abortedNames_eq {tools : List Tool} {outcomes : List Outcome}
    (h : List.Forall₂ (fun tool o => o.IsOf tool) tools outcomes) :
    abortedNames outcomes = namesCutOff tools outcomes := by
  induction h with
  | nil => rfl
  | @cons tool o tools outcomes ho _ ih =>
    unfold abortedNames namesCutOff at ih ⊢
    rw [List.zip_cons_cons, List.filter_cons, List.filter_cons]
    cases o.isAborted with
    | true => simp [ih, ho.toolName]
    | false => simpa using ih

end Verdict

end Premerge
