import Premerge.Proofs.Files.Climbing
import Premerge.Report.Directory

namespace Premerge

namespace World

lemma Path.ancestors_eq_cons {path : Path} (h : path ≠ "") :
    ancestors path = path :: (ancestors path).tail := by
  have he : path.isEmpty = false := by simpa using h
  unfold ancestors
  dsimp only
  split
  · rw [he]
    rfl
  · rfl

end World

namespace Report.Directory

open Premerge.World

variable {σ : Type}

def refusal? (files : FileTree) (path : Path) : Option Failure :=
  if files.pathExists path then
    match files.list path with
    | .error e => some (.report (.unreadable path e))
    | .ok names => if names.isEmpty then none else some (.report (.notEmpty path))
  else none

lemma perform_make (path : Path) (w : World σ) :
    (do
      let (made, files) := (← get).files.makeChain path.ancestors
      modify ({ · with files })
      match made with
      | .ok () => pure ⟨path⟩
      | .error e => throw (.report (.notCreated path e)) : Action σ Directory).perform w =
      match w.files.makeChain path.ancestors with
      | (.ok (), files) => (.ok ⟨path⟩, { w with files })
      | (.error e, files) => (.error (.report (.notCreated path e)), { w with files }) := by
  rw [Action.perform_bind, Action.perform_get]
  dsimp only
  rw [Action.perform_bind, Action.perform_modify]
  rcases w.files.makeChain path.ancestors with ⟨e | ⟨⟩, files⟩ <;> rfl

lemma perform_create (path : Path) (w : World σ) :
    (create path).perform w =
      match refusal? w.files path with
      | some e => (.error e, w)
      | none =>
        match w.files.makeChain path.ancestors with
        | (.ok (), files) => (.ok ⟨path⟩, { w with files })
        | (.error e, files) => (.error (.report (.notCreated path e)), { w with files }) := by
  unfold create refusal?
  rw [Action.perform_bind, Action.perform_get]
  dsimp only
  split
  · rw [Action.perform_bind, Action.perform_lookAtFiles]
    rcases w.files.list path with e | names
    · rfl
    · simp only [Except.mapError]
      cases names.isEmpty with
      | true => exact perform_make path w
      | false => rfl
  · exact perform_make path w

lemma path_of_create {path : Path} {w v : World σ} {reports : Directory}
    (h : (create path).perform w = (.ok reports, v)) :
    reports = ⟨path⟩ ∧ refusal? w.files path = none ∧
      w.files.makeChain path.ancestors = (.ok (), v.files) := by
  rw [perform_create] at h
  split at h
  · cases h
  next hr =>
    split at h
    next hm =>
      cases h
      exact ⟨rfl, hr, hm⟩
    · cases h

lemma list_of_create {path : Path} {w v : World σ} {reports : Directory}
    (ht : w.files.IsTree) (hp : path ≠ "") (hb : ¬w.files.IsByway path)
    (h : (create path).perform w = (.ok reports, v)) : v.files.list path = .ok [] := by
  obtain ⟨_, hr, hm⟩ := path_of_create h
  rw [Path.ancestors_eq_cons hp] at hm
  rcases FileTree.makeChain_eq_ok hp hm with hm | ⟨hv, hd⟩ | ⟨hn, between, hc, hm⟩
  · exact (ht.of_makeDirectory hm).2
  · -- The directory has been there, so it was not refused because it is empty.
    rw [refusal?, if_pos (FileTree.pathExists_of_isDirectory hd)] at hr
    rw [hv]
    split at hr
    · cases hr
    next names hl =>
      cases names with
      | nil => exact hl
      | cons name rest => cases hr
  · have hbetween := ht.of_makeChain (Path.ancestors path).tail
    rw [hc] at hbetween
    rcases hm with hm | ⟨_, hd⟩
    · exact (hbetween.of_makeDirectory hm).2
    · refine (hb ⟨?_, by rw [hc]; exact hd⟩).elim
      cases hx : w.files.pathExists path with
      | true => cases hn.symm.trans (FileTree.makeDirectory_of_pathExists hx)
      | false => rfl

end Report.Directory

end Premerge
