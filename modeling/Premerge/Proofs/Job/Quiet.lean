import Premerge.Job.Validation
import Premerge.Proofs.Report.Creating
import Premerge.Proofs.World.Quiet

namespace Premerge

open Premerge.Report (Directory Fragment Summary)

variable {σ α β : Type}

namespace Action

lemma isAside_forIn (list : List α) (x : β) {step : α → β → Action σ (ForInStep β)}
    (h : ∀ a x, (step a x).IsAside) : (forIn list x step : Action σ β).IsAside := by
  induction list generalizing x with
  | nil => exact isAside_pure x
  | cons a rest ih =>
    rw [List.forIn_cons]
    refine (h a x).bind fun next => ?_
    cases next with
    | done y => exact isAside_pure y
    | yield y => exact ih y

end Action

namespace Repository

lemma isAside_ask (repository : World.Path) (arguments : List String) :
    (ask repository arguments : Action σ _).IsAside := by
  refine (Action.isAside_runCommand _ _).bind fun behaviour => ?_
  split
  · exact Action.isAside_pure _
  · exact Action.isAside_throw _

lemma isAside_commitOf (repository : World.Path) (revision : String) :
    (commitOf repository revision : Action σ _).IsAside := by
  refine (isAside_ask _ _).bind fun output => ?_
  dsimp only
  split
  · exact Action.isAside_throw _
  · exact Action.isAside_pure _

lemma isAside_mergeBase (repository : World.Path) (base head : String) :
    (mergeBase repository base head : Action σ _).IsAside :=
  (isAside_ask _ _).bind fun _ => Action.isAside_pure _

lemma isAside_messageOf (repository : World.Path) (revision : String) :
    (messageOf repository revision : Action σ _).IsAside :=
  (isAside_ask _ _).bind fun _ => Action.isAside_pure _

lemma isAside_changedFiles (repository : World.Path) (base head : String) :
    (changedFiles repository base head : Action σ _).IsAside :=
  (isAside_mergeBase _ _ _).bind fun _ =>
    (isAside_ask _ _).bind fun _ => Action.isAside_ofExcept _

end Repository

namespace Report

lemma Directory.isAside_create (path : World.Path) :
    (create path : Action σ Directory).IsAside := by
  intro w
  rw [perform_create]
  split
  · exact .refl _ w
  · split
    · exact .of_same rfl rfl
    · exact .of_same rfl rfl

lemma Directory.isAside_writeEnvironment (d : Directory) (entries : List (String × String)) :
    (d.writeEnvironment entries : Action σ _).IsAside :=
  (Action.isAside_changeFiles _ _).bind fun _ => Action.isAside_pure _

lemma Directory.isAside_writeFragment (d : Directory) (fragment : Fragment) :
    (d.writeFragment fragment : Action σ _).IsAside :=
  (Action.isAside_changeFiles _ _).bind fun _ => Action.isAside_pure _

lemma Summary.isAside_announce (order : List String) (fragments : List Fragment)
    (failures : List String) : (announce order fragments failures : Action σ Summary).IsAside :=
  (Action.isAside_forIn _ _ fun _ _ =>
    (Action.isAside_log rfl).bind fun _ => Action.isAside_pure _).bind fun _ =>
      Action.isAside_pure _

lemma Summary.isAside_publish (s : Summary) (d : Directory) (shared : Option World.Path) :
    (s.publish d shared : Action σ _).IsAside := by
  have htell (path : World.Path) : (do
      Action.log (.summaryPublished s.included.length path)
      pure path : Action σ World.Path).IsAside :=
    (Action.isAside_log rfl).bind fun _ => Action.isAside_pure _
  refine Action.IsAside.bind
    ((Action.isAside_changeFiles _ _).bind fun _ => Action.isAside_pure _) fun path => ?_
  cases shared with
  | none => exact htell path
  | some file => exact (Action.isAside_changeFiles _ _).bind fun _ => htell path

end Report

namespace Job

lemma isAside_resolve (request : Request) (toolNames : List String) :
    (resolve request toolNames : Action σ Job).IsAside :=
  (Repository.isAside_commitOf _ _).bind fun _ =>
    (Repository.isAside_mergeBase _ _ _).bind fun _ =>
      Action.isAside_draw.bind fun _ =>
        Action.isAside_get.bind fun _ => Action.isAside_pure _

lemma isAside_checkMessage (job : Job) (limit : Nat) :
    (job.checkMessage limit : Action σ Unit).IsAside :=
  (Repository.isAside_messageOf _ _).bind fun _ => Action.isAside_ofExcept _

lemma isAside_classify (job : Job) (c : Config) : (job.classify c : Action σ _).IsAside :=
  (Repository.isAside_changedFiles _ _ _).bind fun _ =>
    (Action.isAside_ofExcept _).bind fun _ =>
      (Action.isAside_log rfl).bind fun _ => Action.isAside_pure _

lemma isAside_openReports (job : Job) (request : Request) :
    (job.openReports request : Action σ Directory).IsAside :=
  (Directory.isAside_create _).bind fun _ =>
    (Directory.isAside_writeEnvironment _ _).bind fun _ => Action.isAside_pure _

lemma isAside_writeFragments (reports : Directory) (fragments : List Fragment) :
    (writeFragments reports fragments : Action σ Unit).IsAside := by
  induction fragments with
  | nil => exact Action.isAside_pure _
  | cons fragment rest ih => exact (Directory.isAside_writeFragment _ _).bind fun _ => ih

lemma isQuiet_prepare (c : Config) (request : Request) :
    (prepare c request : Action σ Prepared).IsQuiet :=
  (Action.isQuiet_ofExcept _).bind fun _ =>
    (isAside_resolve _ _).isQuiet.bind fun job =>
      Action.isAside_get.isQuiet.bind fun _ =>
        (Action.isQuiet_log _).bind fun _ =>
          (isAside_checkMessage job _).isQuiet.bind fun _ =>
            (isAside_classify job c).isQuiet.bind fun _ =>
              (isAside_openReports job request).isQuiet.bind fun _ => Action.isQuiet_pure _

lemma isQuiet_conclude (c : Config) (request : Request) (job : Job) (began : Nat)
    (reports : Directory) (results : Workplace.Results) :
    (conclude c request job began reports results : Action σ JobReport).IsQuiet :=
  (isAside_writeFragments _ _).isQuiet.bind fun _ =>
    (Summary.isAside_announce _ _ _).isQuiet.bind fun _ =>
      (Summary.isAside_publish _ _ _).isQuiet.bind fun _ =>
        Action.isAside_get.isQuiet.bind fun _ =>
          (Action.isQuiet_log _).bind fun _ =>
            (Action.isQuiet_log _).bind fun _ => Action.isQuiet_pure _

end Job

end Premerge
