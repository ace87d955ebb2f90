import Premerge.Proofs.Files.Writable
import Premerge.Report.Publication

namespace Premerge.Report

open Premerge.Text.Utf8 (encode)
open Premerge.World

variable {σ : Type}

lemma Directory.isEntryName_summary : IsEntryName summaryFile :=
  ⟨by decide, by decide, by decide, by decide⟩

namespace Summary

lemma exists_perform_warn (names : List String) (w : World σ) :
    ∃ v, (forIn names PUnit.unit fun name _ => do
        Action.log (.fragmentUnplaced name)
        pure (ForInStep.yield PUnit.unit) : Action σ PUnit).perform w = (.ok PUnit.unit, v) ∧
      v.files = w.files := by
  induction names generalizing w with
  | nil => exact ⟨w, rfl, rfl⟩
  | cons name rest ih =>
    obtain ⟨v, hv, hf⟩ := ih (w.log (.fragmentUnplaced name))
    refine ⟨v, ?_, hf⟩
    rw [List.forIn_cons, Action.perform_bind, Action.perform_bind, Action.perform_log]
    exact hv

lemma exists_perform_announce (order : List String) (fragments : List Fragment)
    (failures : List String) (w : World σ) :
    ∃ v, (announce order fragments failures).perform w =
      (.ok (compose order fragments failures), v) ∧ v.files = w.files := by
  obtain ⟨v, hv, hf⟩ := exists_perform_warn (unplaced order fragments) w
  refine ⟨v, ?_, hf⟩
  rw [announce, Action.perform_bind, hv]
  rfl

def share (text : String) (files : FileTree) : Option Path → Except SystemError FileTree
  | none => .ok files
  | some file => files.append file (encode text)

lemma perform_publish (s : Summary) (d : Directory) (shared : Option Path) (w : World σ) :
    (s.publish d shared).perform w =
      match w.files.writeNew d.summaryPath (encode s.text) with
      | .error e => (.error (.report (.unwritable d.summaryPath e)), w)
      | .ok files =>
        match share s.text files shared with
        | .error e => (.error (.system e), { w with files })
        | .ok files => (.ok d.summaryPath,
            { w with files }.log (.summaryPublished s.included.length d.summaryPath)) := by
  rw [publish, Directory.writeSummary, Action.perform_bind, Action.perform_bind,
    Action.perform_changeFiles]
  rcases w.files.writeNew d.summaryPath (encode s.text) with e | files
  · rfl
  · cases shared with
    | none => rfl
    | some file =>
      dsimp only
      rw [Action.perform_pure]
      dsimp only
      rw [Action.perform_bind, Action.perform_changeFiles, share]
      rcases files.append file (encode s.text) with e | after <;> rfl

lemma exists_share_iff (text : String) {files : FileTree} {shared : Option Path} :
    (∃ after, share text files shared = .ok after) ↔ ∀ file ∈ shared, files.CanWrite file := by
  cases shared with
  | none => simp [share]
  | some file => simpa [share] using FileTree.exists_append_iff (encode text)

lemma exists_publish_iff {s : Summary} {d : Directory} {shared : Option Path} {w : World σ} :
    (∃ path v, (s.publish d shared).perform w = (.ok path, v)) ↔
      w.files.IsFree d.summaryPath ∧ ∀ file ∈ shared, w.files.CanWrite file := by
  rw [perform_publish, ← FileTree.exists_writeNew_iff (encode s.text)]
  rcases hw : w.files.writeNew d.summaryPath (encode s.text) with e | files
  · simp
  · obtain ⟨location, hat, _, rfl⟩ := FileTree.writeNew_eq_ok_iff.mp hw
    -- The summary is no directory, so what can be shared is known before it is written.
    have hs := (hat.sameDirectories (encode s.text)).canWrite_iff
    simp only [Except.ok.injEq, exists_eq', true_and]
    rw [← forall₂_congr fun file _ => hs file, ← exists_share_iff s.text]
    rcases share s.text _ shared with e | after <;> simp

lemma read_of_publish {s : Summary} {d : Directory} {shared : Option Path} {w v : World σ}
    {path : Path} (h : (s.publish d shared).perform w = (.ok path, v)) :
    path = d.summaryPath ∧
      ((¬∃ file ∈ shared, w.files.SamePlace file d.summaryPath) →
        v.files.read path = .ok (encode s.text)) ∧
      ((∃ file ∈ shared, w.files.SamePlace file d.summaryPath) →
        v.files.read path = .ok (encode s.text ++ encode s.text)) := by
  rw [perform_publish] at h
  rcases hw : w.files.writeNew d.summaryPath (encode s.text) with e | files <;> rw [hw] at h
  · cases h
  obtain ⟨location, hat, _, rfl⟩ := FileTree.writeNew_eq_ok_iff.mp hw
  have hst := hat.stores (encode s.text)
  have hdir := hat.sameDirectories (encode s.text)
  cases shared with
  | none =>
    cases h
    exact ⟨rfl, fun _ => hst.read, by simp⟩
  | some file =>
    -- The shared file has a location of its own, or it is the summary and takes its text once more.
    dsimp only [share] at h
    rcases ha : FileTree.append _ file (encode s.text) with e | after <;> rw [ha] at h
    · cases h
    cases h
    obtain ⟨place, hp, rfl⟩ := FileTree.update_eq_ok_iff.mp ha
    have hplace := hdir.symm.writesAt hp
    refine ⟨rfl, fun hn => ?_, ?_⟩
    · have hne : location ≠ place := by
        rintro rfl
        exact hn ⟨file, rfl, location, hplace, hat⟩
      exact (hst.put_of_ne hp.2 hne _).read
    · rintro ⟨_, ⟨⟩, other, hfile, hsummary⟩
      obtain rfl := hfile.unique hplace
      obtain rfl := hsummary.unique hat
      rw [hst.contentAt]
      exact (hst.write_stores _).read

end Summary

end Premerge.Report
