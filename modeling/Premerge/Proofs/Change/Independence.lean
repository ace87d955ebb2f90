import Mathlib.Data.List.Sort
import Premerge.Proofs.Change.Matching

namespace Premerge

open Premerge.Change

namespace Data.NameMap

variable {α : Type}

instance : Std.Antisymm fun (a b : String × α) => a.1 < b.1 :=
  ⟨fun _ _ h h' => absurd h' (String.lt_asymm h)⟩

instance : Std.Irrefl fun (a b : String × α) => a.1 < b.1 :=
  ⟨fun entry => String.lt_irrefl entry.1⟩

lemma eq_of_find? {m other : NameMap α} (h : ∀ name, m.find? name = other.find? name) :
    m = other := by
  have hmem : ∀ entry, entry ∈ m.entries ↔ entry ∈ other.entries := by
    intro entry
    rw [← find?_eq_some_iff, ← find?_eq_some_iff, h]
  have he : m.entries = other.entries := m.ascending.eq_of_mem_iff other.ascending hmem
  cases m
  cases other
  simpa using he

end Data.NameMap

namespace Change

lemma PredicateSpec.matching_append (spec : PredicateSpec) (front back : List File) :
    spec.matching (front ++ back) = spec.matching front ++ spec.matching back := by
  simp [matching]

lemma AreSound.perm {specs others : List PredicateSpec} (h : AreSound specs)
    (hp : others.Perm specs) : AreSound others :=
  ⟨fun spec hm => h.1 spec (hp.subset hm), (hp.map PredicateSpec.name).nodup_iff.mpr h.2⟩

namespace ChangeSet

variable {files : List File} {specs others : List PredicateSpec} {changes : ChangeSet}

lemma classify_eq_ok_iff : classify files specs = .ok changes ↔
    changes.files = files ∧ addAll files .empty specs = .ok changes.predicates := by
  obtain ⟨own, predicates⟩ := changes
  rcases ha : addAll files .empty specs with e | all
  · simp [classify, ha]
  · simp [classify, ha, @eq_comm _ files]

lemma predicate?_eq_some_iff (h : classify files specs = .ok changes) {name : String}
    {predicate : Predicate} :
    changes.predicate? name = some predicate ↔
      ∃ spec ∈ specs, spec.name = name ∧ spec.evaluate files = .ok predicate := by
  have hnames := (exists_classify_iff.mp ⟨changes, h⟩).2
  have hadd := (classify_eq_ok_iff.mp h).2
  rcases find?_addAll hadd name with ⟨hnone, hunknown⟩ | ⟨spec, hm, rfl, own, he, hfind⟩
  · rw [predicate?, hnone]
    constructor
    · intro hp
      cases hp
    · rintro ⟨spec, hm, hname, _⟩
      exact absurd hname (hunknown spec hm)
  · rw [predicate?, hfind]
    constructor
    · rintro ⟨⟩
      exact ⟨spec, hm, rfl, he⟩
    · rintro ⟨other, ho, hname, hother⟩
      obtain rfl := List.inj_on_of_nodup_map hnames ho hm hname
      rw [Except.ok.inj (he.symm.trans hother)]

lemma classify_perm (h : classify files specs = .ok changes) (hp : others.Perm specs) :
    classify files others = .ok changes := by
  obtain ⟨reordered, hr⟩ := exists_classify_iff.mpr ((exists_classify_iff.mp ⟨changes, h⟩).perm hp)
  have hsame : reordered.predicates = changes.predicates := by
    apply Data.NameMap.eq_of_find?
    intro name
    apply Option.ext
    intro predicate
    have hiff := @predicate?_eq_some_iff files others reordered hr name predicate
    simp only [hp.mem_iff] at hiff
    exact hiff.trans (predicate?_eq_some_iff h).symm
  rw [hr]
  cases reordered
  cases changes
  simp_all [classify_eq_ok_iff]

lemma predicate?_of_mem (h : classify files specs = .ok changes) {spec : PredicateSpec}
    (hm : spec ∈ specs) :
    changes.predicate? spec.name =
      some ⟨spec.name, !(spec.matching files).isEmpty, spec.matching files⟩ := by
  have hspec := (exists_classify_iff.mp ⟨changes, h⟩).1 spec hm
  rcases spec.evaluate_cases files with ⟨predicate, he, _⟩ | ⟨_, _, hbad⟩
  · rw [← PredicateSpec.evaluate_eq_ok he]
    exact (predicate?_eq_some_iff h).mpr ⟨spec, hm, rfl, he⟩
  · obtain ⟨glob, hg, cause, hc, _⟩ := hbad
    obtain ⟨tokens, ht⟩ := hspec glob hg
    cases hc.symm.trans ht

lemma classify_append {front back : List File} (h : classify (front ++ back) specs = .ok changes) :
    ∃ first second, classify front specs = .ok first ∧ classify back specs = .ok second ∧
      ∀ spec ∈ specs, ∃ whole before after, changes.predicate? spec.name = some whole ∧
        first.predicate? spec.name = some before ∧ second.predicate? spec.name = some after ∧
        whole.files = before.files ++ after.files ∧
        (whole.isMatched = true ↔ whole.files ≠ []) := by
  have hsound := exists_classify_iff.mp ⟨changes, h⟩
  obtain ⟨first, hf⟩ : ∃ first, classify front specs = .ok first := exists_classify_iff.mpr hsound
  obtain ⟨second, hs⟩ : ∃ second, classify back specs = .ok second := exists_classify_iff.mpr hsound
  refine ⟨first, second, hf, hs, fun spec hm => ?_⟩
  refine ⟨_, _, _, predicate?_of_mem h hm, predicate?_of_mem hf hm, predicate?_of_mem hs hm,
    spec.matching_append front back, by simp⟩

/-- Whether changes can be classified is a matter of the globs and names alone. If they can, no
predicate has a part in what comes of another one, and no file in whether another one matches. -/
theorem classify_independently (files : List File) (specs : List PredicateSpec) :
    ((∃ changes, classify files specs = .ok changes) ↔
      (∀ spec ∈ specs, ∀ glob ∈ spec.globs, ∃ tokens, Glob.compile glob = .ok tokens) ∧
        (specs.map PredicateSpec.name).Nodup) ∧
    ∀ changes, classify files specs = .ok changes →
      (∀ others, others.Perm specs → classify files others = .ok changes) ∧
      (∀ more others, others.Perm (specs ++ more) →
        (∀ spec ∈ more, ∀ glob ∈ spec.globs, ∃ tokens, Glob.compile glob = .ok tokens) →
        (others.map PredicateSpec.name).Nodup →
        ∃ larger, classify files others = .ok larger ∧
          ∀ spec ∈ specs, larger.predicate? spec.name = changes.predicate? spec.name) ∧
      ∀ front back, files = front ++ back →
        ∃ first second, classify front specs = .ok first ∧ classify back specs = .ok second ∧
          ∀ spec ∈ specs, ∃ whole before after, changes.predicate? spec.name = some whole ∧
            first.predicate? spec.name = some before ∧ second.predicate? spec.name = some after ∧
            whole.files = before.files ++ after.files ∧
            (whole.isMatched = true ↔ whole.files ≠ []) := by
  refine ⟨exists_classify_iff, fun changes h => ⟨fun _ hp => classify_perm h hp, ?_, ?_⟩⟩
  · intro more others hp hglobs hnames
    have hsound := exists_classify_iff.mp ⟨changes, h⟩
    have hall : ∀ spec ∈ others, spec.Compiles := by
      intro spec hm
      rcases List.mem_append.mp (hp.subset hm) with hm | hm
      · exact hsound.1 spec hm
      · exact hglobs spec hm
    obtain ⟨larger, hl⟩ : ∃ larger, classify files others = .ok larger :=
      exists_classify_iff.mpr ⟨hall, hnames⟩
    refine ⟨larger, hl, fun spec hm => ?_⟩
    have ho : spec ∈ others := hp.mem_iff.mpr (List.mem_append_left more hm)
    rw [predicate?_of_mem hl ho, predicate?_of_mem h hm]
  · rintro front back rfl
    exact classify_append h

def noteFiles : List File :=
  [⟨"setup.py", .modified⟩, ⟨"docs/notes.md", .added⟩, ⟨"docs/old.md", .deleted⟩]

def sourcesSpec : PredicateSpec := ⟨"sources", ["*.py", "**/*.py"], true⟩

def notesSpec : PredicateSpec := ⟨"notes", ["docs/*.md"], false⟩

def buildSpec : PredicateSpec := ⟨"build", ["Dockerfile", "**/*.toml"], false⟩

theorem classify_independently_notes :
    ∃ changes larger first second,
      classify noteFiles [sourcesSpec, notesSpec] = .ok changes ∧
      classify noteFiles [notesSpec, sourcesSpec] = .ok changes ∧
      classify noteFiles [notesSpec, buildSpec, sourcesSpec] = .ok larger ∧
      larger.predicate? "notes" = changes.predicate? "notes" ∧
      classify (noteFiles.take 2) [sourcesSpec, notesSpec] = .ok first ∧
      classify (noteFiles.drop 2) [sourcesSpec, notesSpec] = .ok second ∧
      ∃ whole before after, changes.predicate? "notes" = some whole ∧
        first.predicate? "notes" = some before ∧ second.predicate? "notes" = some after ∧
        whole.files = before.files ++ after.files := by
  obtain ⟨hiff, hall⟩ := classify_independently noteFiles [sourcesSpec, notesSpec]
  have hcompile (glob : String) (h : (Glob.compile glob).isOk = true) :
      ∃ tokens, Glob.compile glob = .ok tokens := by
    rcases hc : Glob.compile glob with e | tokens
    · simp [hc, Except.isOk, Except.toBool] at h
    · exact ⟨tokens, rfl⟩
  obtain ⟨changes, hc⟩ := hiff.mpr
    ⟨fun spec hm glob hg => hcompile glob (by revert spec glob; decide), by decide⟩
  obtain ⟨hperm, hmore, hsplit⟩ := hall changes hc
  obtain ⟨larger, hl, hsame⟩ := hmore [buildSpec] [notesSpec, buildSpec, sourcesSpec]
    (by decide) (fun spec hm glob hg => hcompile glob (by revert spec glob; decide)) (by decide)
  obtain ⟨first, second, hf, hs, hparts⟩ := hsplit (noteFiles.take 2) (noteFiles.drop 2) rfl
  obtain ⟨whole, before, after, hw, hb, ha, happend, _⟩ := hparts notesSpec (by decide)
  exact ⟨changes, larger, first, second, hc, hperm _ (by decide), hl, hsame notesSpec (by decide),
    hf, hs, whole, before, after, hw, hb, ha, happend⟩

end ChangeSet

end Change

end Premerge
