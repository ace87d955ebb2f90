import Mathlib.Data.List.Nodup
import Premerge.Proofs.Report.Publishing

namespace Premerge

open Premerge.World
open Premerge.Text.Utf8 (encode)

namespace Report

variable {σ : Type} {d : Directory}

structure Publication where
  summary : Summary
  shared : Option Path

def Publication.octets (call : Publication) : Text.Utf8.Octets :=
  encode call.summary.text

/-- One of several publications into a directory, in the world that the earlier ones left. -/
structure Turn (σ : Type) (d : Directory) where
  before : World σ
  call : Publication

namespace Turn

def outcome (t : Turn σ d) : Except Failure Path × World σ :=
  (t.call.summary.publish d t.call.shared).perform t.before

def result (t : Turn σ d) : Except Failure Path := t.outcome.1

def after (t : Turn σ d) : World σ := t.outcome.2

def Writes (t : Turn σ d) : Prop :=
  t.after.files.read d.summaryPath ≠ t.before.files.read d.summaryPath

instance (t : Turn σ d) : Decidable t.Writes :=
  inferInstanceAs (Decidable (_ ≠ _))

def Refused (t : Turn σ d) : Prop :=
  ∃ e, t.outcome = (.error (.report (.unwritable d.summaryPath e)), t.before)

lemma Refused.after_eq {t : Turn σ d} (h : t.Refused) : t.after = t.before := by
  obtain ⟨e, he⟩ := h
  rw [after, he]

lemma Refused.not_writes {t : Turn σ d} (h : t.Refused) : ¬t.Writes := by
  simp [Writes, h.after_eq]

lemma Refused.result_ne_ok {t : Turn σ d} (h : t.Refused) (path : Path) :
    t.result ≠ .ok path := by
  obtain ⟨e, he⟩ := h
  simp [result, he]

lemma refused_of_not_isFree {t : Turn σ d} (h : ¬t.before.files.IsFree d.summaryPath) :
    t.Refused := by
  rw [← FileTree.exists_writeNew_iff t.call.octets] at h
  rcases hw : t.before.files.writeNew d.summaryPath t.call.octets with e | files
  · rw [Publication.octets] at hw
    exact ⟨e, by rw [outcome, Summary.perform_publish, hw]⟩
  · exact (h ⟨files, hw⟩).elim

def written (t : Turn σ d) (location : Location) : FileTree :=
  t.before.files.put location (.file t.call.octets)

lemma shares_or_not {t : Turn σ d} (h : t.before.files.IsFree d.summaryPath) :
    ∃ location, t.before.files.WritesAt d.summaryPath location ∧
      ((t.after.files = t.written location ∧
        ∀ path, t.result = .ok path → path = d.summaryPath ∧ t.call.shared = none) ∨
      t.result = .ok d.summaryPath ∧ ∃ file ∈ t.call.shared, ∃ place,
        (t.written location).WritesAt file place ∧ t.after.files =
          (t.written location).put place
            (.file ((t.written location).contentAt place ++ t.call.octets))) := by
  obtain ⟨location, hat, hnone⟩ := h
  have hw : t.before.files.writeNew d.summaryPath t.call.octets = .ok (t.written location) :=
    FileTree.writeNew_eq_ok_iff.mpr ⟨location, hat, hnone, rfl⟩
  have ho := Summary.perform_publish t.call.summary d t.call.shared t.before
  rw [← Publication.octets, hw] at ho
  dsimp only at ho
  refine ⟨location, hat, ?_⟩
  rw [result, after, outcome, ho]
  rcases t.call.shared with _ | file
  · exact .inl ⟨rfl, fun path h => ⟨(Except.ok.inj h).symm, rfl⟩⟩
  dsimp only [Summary.share]
  rcases hs : (t.written location).append file t.call.octets with e | shared <;>
    rw [← Publication.octets, hs]
  · exact .inl ⟨rfl, fun path h => by cases h⟩
  · obtain ⟨place, hp, rfl⟩ := FileTree.update_eq_ok_iff.mp hs
    exact .inr ⟨rfl, file, rfl, place, hp, rfl⟩

structure Publishes (t : Turn σ d) (location : Location) : Prop where
  writesAt : t.before.files.WritesAt d.summaryPath location
  isFree : t.before.files.IsFree d.summaryPath
  stores : t.after.files.Stores d.summaryPath location t.call.octets
  elsewhere {place : Location} : place ≠ location →
    t.after.files.get? place = t.before.files.get? place ∨
      (∃ file ∈ t.call.shared, t.before.files.WritesAt file place) ∧
        t.after.files.get? place = some (.file (t.before.files.contentAt place ++ t.call.octets))
  shares {path : Path} : t.result = .ok path → path = d.summaryPath ∧
    ∀ file ∈ t.call.shared, ∃ place, t.before.files.WritesAt file place ∧
      t.after.files.read file = .ok (t.before.files.contentAt place ++ t.call.octets)

lemma exists_publishes {t : Turn σ d} (h : t.before.files.IsFree d.summaryPath)
    (hother : ∀ file ∈ t.call.shared, ¬t.before.files.SamePlace file d.summaryPath) :
    ∃ location, t.Publishes location := by
  obtain ⟨location, hat, hcases⟩ := shares_or_not h
  have hl := FileTree.ne_nil_of_get? hat.2
  have hst := hat.stores t.call.octets
  have hget {place : Location} (hne : place ≠ location) :
      (t.written location).get? place = t.before.files.get? place := by
    rw [written, FileTree.get?_put _ hl, if_neg hne]
  refine ⟨location, ?_⟩
  rcases hcases with ⟨hafter, hresult⟩ | ⟨hresult, file, hfile, place, hp, hafter⟩
  · refine ⟨hat, h, hafter ▸ hst, fun hne => .inl (hafter ▸ hget hne), fun hok => ?_⟩
    obtain ⟨hpath, hnone⟩ := hresult _ hok
    exact ⟨hpath, by simp [hnone]⟩
  · -- The summary is no directory, so the shared file is where it was.
    have hplace := (hat.sameDirectories t.call.octets).symm.writesAt hp
    have hne : place ≠ location := by
      rintro rfl
      exact hother file hfile ⟨place, hplace, hat⟩
    have hcontent : (t.written location).contentAt place = t.before.files.contentAt place :=
      FileTree.contentAt_put_of_ne t.before.files hl hne _
    rw [hcontent] at hafter
    refine ⟨hat, h, hafter ▸ hst.put_of_ne hp.2 hne.symm _, fun {other} ho => ?_, fun hok => ?_⟩
    · rw [hafter, FileTree.get?_put _ (FileTree.ne_nil_of_get? hp.2), hget ho]
      by_cases hother : other = place
      · exact .inr ⟨⟨file, hfile, hother ▸ hplace⟩, by rw [if_pos hother, hother]⟩
      · exact .inl (by rw [if_neg hother])
    · refine ⟨(Except.ok.inj (hresult.symm.trans hok)).symm, fun other ho => ⟨place, ?_⟩⟩
      obtain rfl : file = other := Option.some.inj (hfile.symm.trans ho)
      exact ⟨hplace, hafter ▸ (hp.stores _).read⟩

lemma publishes_or_refused (t : Turn σ d)
    (hother : ∀ file ∈ t.call.shared, ¬t.before.files.SamePlace file d.summaryPath) :
    (∃ location, t.Publishes location) ∨ t.Refused := by
  by_cases h : t.before.files.IsFree d.summaryPath
  · exact .inl (exists_publishes h hother)
  · exact .inr (refused_of_not_isFree h)

lemma Publishes.writes {t : Turn σ d} {location : Location} (h : t.Publishes location) :
    t.Writes := by
  rw [Writes, h.stores.read, h.isFree.read]
  simp

lemma not_isFree_after (t : Turn σ d) : ¬t.after.files.IsFree d.summaryPath := by
  by_cases h : t.before.files.IsFree d.summaryPath
  · obtain ⟨location, hat, hcases⟩ := shares_or_not h
    have hst := hat.stores t.call.octets
    rcases hcases with ⟨hafter, -⟩ | ⟨-, file, -, place, hp, hafter⟩
    · exact hafter ▸ hst.not_isFree
    · obtain ⟨content, hkept⟩ := hst.keeps (FileTree.keeps_put _ _ hp.2)
      exact hafter ▸ hkept.not_isFree
  · rwa [(refused_of_not_isFree h).after_eq]

end Turn

def publishAll (d : Directory) (w : World σ) : List Publication → List (Turn σ d)
  | [] => []
  | call :: rest =>
    let turn : Turn σ d := ⟨w, call⟩
    turn :: publishAll d turn.after rest

lemma refused_of_mem_publishAll {w : World σ} (h : ¬w.files.IsFree d.summaryPath)
    {calls : List Publication} {t : Turn σ d} (ht : t ∈ publishAll d w calls) :
    t.before = w ∧ t.Refused := by
  induction calls generalizing w with
  | nil => cases ht
  | cons call rest ih =>
    have hr : Turn.Refused (d := d) ⟨w, call⟩ := Turn.refused_of_not_isFree h
    rcases List.mem_cons.mp ht with rfl | hm
    · exact ⟨rfl, hr⟩
    · rw [hr.after_eq] at hm
      exact ih h hm

/-- However often summaries are published into one directory, one of them is written at most, and
one of them is added to a shared file at most. -/
theorem publishAll_once (w : World σ) {calls : List Publication}
    (hother : ∀ call ∈ calls, ∀ file ∈ call.shared, ¬w.files.SamePlace file d.summaryPath) :
    ((publishAll d w calls).Pairwise fun t later => t.Writes →
      ¬later.Writes ∧ later.Refused ∧
        later.after.files.read d.summaryPath = .ok t.call.octets) ∧
    (∀ t ∈ publishAll d w calls,
      (t.Writes ∧ t.after.files.read d.summaryPath = .ok t.call.octets ∨ t.Refused) ∧
      ∀ path, t.result = .ok path → path = d.summaryPath ∧
        ∀ file ∈ t.call.shared, ∃ place, t.before.files.WritesAt file place ∧
          t.after.files.read file = .ok (t.before.files.contentAt place ++ t.call.octets)) ∧
    ∀ first ∈ calls.head?, ∀ t ∈ publishAll d w calls, ∀ place,
      ¬w.files.WritesAt d.summaryPath place →
        t.after.files.get? place = w.files.get? place ∨
          (∃ file ∈ first.shared, w.files.WritesAt file place) ∧
            t.after.files.get? place = some (.file (w.files.contentAt place ++ first.octets)) := by
  cases calls with
  | nil => simp [publishAll]
  | cons call rest =>
    let first : Turn σ d := ⟨w, call⟩
    have hfirst := first.publishes_or_refused (hother call (by simp))
    have hlater {t : Turn σ d} (hm : t ∈ publishAll d first.after rest) :
        t.Refused ∧ t.after = first.after := by
      obtain ⟨hbefore, hr⟩ := refused_of_mem_publishAll first.not_isFree_after hm
      exact ⟨hr, hr.after_eq.trans hbefore⟩
    refine ⟨List.pairwise_cons.mpr ⟨fun t hm hw => ?_, ?_⟩, fun t hm => ?_,
      fun _ h t hm place hp => ?_⟩
    · obtain ⟨hr, ha⟩ := hlater hm
      obtain ⟨location, hp⟩ := hfirst.resolve_right fun hr => hr.not_writes hw
      exact ⟨hr.not_writes, hr, ha ▸ hp.stores.read⟩
    · -- Behind the first call none writes.
      exact List.pairwise_of_forall_mem_list fun t hm _ _ hw => ((hlater hm).1.not_writes hw).elim
    · obtain ⟨location, hp⟩ | hr : (∃ location, t.Publishes location) ∨ t.Refused := by
        rcases List.mem_cons.mp hm with rfl | hm
        · exact hfirst
        · exact .inr (hlater hm).1
      · exact ⟨.inl ⟨hp.writes, hp.stores.read⟩, fun path => hp.shares⟩
      · exact ⟨.inr hr, fun path h => (hr.result_ne_ok path h).elim⟩
    · cases h
      have ha : t.after = first.after := by
        rcases List.mem_cons.mp hm with rfl | hm
        · rfl
        · exact (hlater hm).2
      rw [ha]
      rcases hfirst with ⟨location, hpub⟩ | hr
      · exact hpub.elsewhere fun he => hp (he ▸ hpub.writesAt)
      · exact .inl (by rw [hr.after_eq])

def twoPublications : List Publication :=
  [⟨⟨"first", []⟩, some "missing/step.md"⟩, ⟨⟨"second", []⟩, some "step.md"⟩]

theorem publishAll_once_missing :
    (∀ call ∈ twoPublications, ∀ file ∈ call.shared,
      ¬FileTree.fresh.SamePlace file (Directory.summaryPath ⟨"."⟩)) ∧
    ∃ first second : Turn Unit ⟨"."⟩,
      publishAll ⟨"."⟩ (.fresh fun _ => none) twoPublications = [first, second] ∧
      first.result = .error (.system .notFound) ∧ first.Writes ∧ second.Refused ∧
      second.after.files.read "./summary.md" = .ok (encode "first") := by
  have hother : ∀ call ∈ twoPublications, ∀ file ∈ call.shared,
      ¬FileTree.fresh.SamePlace file (Directory.summaryPath ⟨"."⟩) := by
    have hspots : ∀ call ∈ twoPublications, ∀ file ∈ call.shared,
        (FileTree.fresh.locate file).map (·.location) ≠
          (FileTree.fresh.locate (Directory.summaryPath ⟨"."⟩)).map (·.location) := by
      decide +kernel
    rintro call hc file hf ⟨location, hfile, hsummary⟩
    exact hspots call hc file hf (by rw [hfile.1, hsummary.1])
  let w : World Unit := .fresh fun _ => none
  let first : Turn Unit ⟨"."⟩ := ⟨w, ⟨⟨"first", []⟩, some "missing/step.md"⟩⟩
  let second : Turn Unit ⟨"."⟩ := ⟨first.after, ⟨⟨"second", []⟩, some "step.md"⟩⟩
  have hw : first.result = .error (.system .notFound) ∧ first.Writes := by decide +kernel
  have hpair := (publishAll_once w hother).1
  have hsecond := List.mem_singleton_self second
  obtain ⟨-, hrefused, hread⟩ := List.rel_of_pairwise_cons hpair hsecond hw.2
  exact ⟨hother, first, second, rfl, hw.1, hw.2, hrefused, hread⟩

end Report

end Premerge
