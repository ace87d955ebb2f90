import Mathlib.Tactic.Lemma
import Mathlib.Data.List.Nodup
import Premerge.Change.Classification

namespace Premerge.Change

open Premerge.Data

namespace PredicateSpec

def Compiles (spec : PredicateSpec) : Prop :=
  ∀ glob ∈ spec.globs, ∃ tokens, Glob.compile glob = .ok tokens

def HasBadGlob (spec : PredicateSpec) (fault : ConfigFault) : Prop :=
  ∃ glob ∈ spec.globs, ∃ cause, Glob.compile glob = .error cause ∧
    fault = .badGlob spec.name glob cause

lemma patterns_cases (spec : PredicateSpec) (globs : List String) :
    (∃ patterns, spec.patterns globs = .ok patterns ∧
      ∀ glob ∈ globs, ∃ tokens, Glob.compile glob = .ok tokens) ∨
    ∃ glob ∈ globs, ∃ cause, Glob.compile glob = .error cause ∧
      spec.patterns globs = .error (.config (.badGlob spec.name glob cause)) := by
  induction globs with
  | nil => exact .inl ⟨[], rfl, by simp⟩
  | cons glob rest ih =>
    rcases hc : Glob.compile glob with cause | tokens
    · exact .inr ⟨glob, by simp, cause, hc, by simp only [patterns, hc]⟩
    · rcases ih with ⟨more, hm, hall⟩ | ⟨other, ho, cause, hbad, hm⟩
      · refine .inl ⟨tokens :: more, by simp only [patterns, hc, hm], ?_⟩
        rw [List.forall_mem_cons]
        exact ⟨⟨tokens, hc⟩, hall⟩
      · exact .inr ⟨other, List.mem_cons_of_mem _ ho, cause, hbad, by simp only [patterns, hc, hm]⟩

lemma evaluate_cases (spec : PredicateSpec) (files : List File) :
    (∃ predicate, spec.evaluate files = .ok predicate ∧ spec.Compiles) ∨
    ∃ fault, spec.evaluate files = .error (.config fault) ∧ spec.HasBadGlob fault := by
  rcases spec.patterns_cases spec.globs with ⟨patterns, hp, hall⟩ | ⟨glob, hg, cause, hbad, hp⟩
  · exact .inl ⟨_, by simp only [evaluate, hp]; rfl, hall⟩
  · exact .inr ⟨_, by simp only [evaluate, hp], glob, hg, cause, hbad, rfl⟩

end PredicateSpec

def AreSound (specs : List PredicateSpec) : Prop :=
  (∀ spec ∈ specs, spec.Compiles) ∧ (specs.map PredicateSpec.name).Nodup

def HaveFault (specs : List PredicateSpec) (fault : ConfigFault) : Prop :=
  (∃ spec ∈ specs, spec.HasBadGlob fault) ∨
    ∃ name, 1 < (specs.map PredicateSpec.name).count name ∧ fault = .duplicatePredicate name

lemma not_areSound_of_haveFault {specs : List PredicateSpec} {fault : ConfigFault}
    (h : HaveFault specs fault) : ¬AreSound specs := by
  rintro ⟨hall, hn⟩
  rcases h with ⟨spec, hm, glob, hg, cause, hbad, _⟩ | ⟨name, hc, _⟩
  · obtain ⟨tokens, hok⟩ := hall spec hm glob hg
    cases hbad.symm.trans hok
  · have := List.nodup_iff_count_le_one.mp hn name
    omega

lemma HaveFault.cons {specs : List PredicateSpec} {fault : ConfigFault} (h : HaveFault specs fault)
    (spec : PredicateSpec) : HaveFault (spec :: specs) fault := by
  rcases h with ⟨other, hm, hbad⟩ | ⟨name, hc, hf⟩
  · exact .inl ⟨other, List.mem_cons_of_mem _ hm, hbad⟩
  · refine .inr ⟨name, ?_, hf⟩
    have := List.count_le_count_cons (a := name) (b := spec.name) (l := specs.map PredicateSpec.name)
    rw [List.map_cons]
    omega

lemma AreSound.cons {spec : PredicateSpec} {specs : List PredicateSpec} (hspec : spec.Compiles)
    (h : AreSound specs) (hfresh : ∀ other ∈ specs, other.name ≠ spec.name) :
    AreSound (spec :: specs) := by
  constructor
  · rw [List.forall_mem_cons]
    exact ⟨hspec, h.1⟩
  · rw [List.map_cons, List.nodup_cons]
    refine ⟨fun hm => ?_, h.2⟩
    obtain ⟨other, ho, hname⟩ := List.mem_map.mp hm
    exact hfresh other ho hname

lemma haveFault_of_namesake {spec other : PredicateSpec} {specs : List PredicateSpec}
    (hm : other ∈ specs) (hname : other.name = spec.name) :
    HaveFault (spec :: specs) (.duplicatePredicate other.name) := by
  refine .inr ⟨other.name, ?_, rfl⟩
  have hcount := List.count_pos_iff.mpr (List.mem_map_of_mem (f := PredicateSpec.name) hm)
  rw [hname] at hcount
  rw [List.map_cons, hname, List.count_cons_self]
  omega

lemma find?_eq_none_of_insert {known : NameMap Predicate} {name other : String} {predicate : Predicate}
    (h : (known.insert name predicate).find? other = none) : other ≠ name ∧ known.find? other = none := by
  rw [NameMap.find?_insert] at h
  split at h
  · cases h
  next hne => exact ⟨hne, h⟩

namespace ChangeSet

lemma addAll_cases (files : List File) (known : NameMap Predicate) (specs : List PredicateSpec) :
    (∃ all, addAll files known specs = .ok all ∧ AreSound specs ∧
      ∀ spec ∈ specs, known.find? spec.name = none) ∨
    ∃ fault, addAll files known specs = .error (.config fault) ∧
      (HaveFault specs fault ∨
        ∃ spec ∈ specs, known.find? spec.name ≠ none ∧ fault = .duplicatePredicate spec.name) := by
  induction specs generalizing known with
  | nil => exact .inl ⟨known, rfl, by simp [AreSound], by simp⟩
  | cons spec rest ih =>
    rcases spec.evaluate_cases files with ⟨predicate, he, hspec⟩ | ⟨fault, he, hbad⟩
    · by_cases hknown : known.find? spec.name = none
      · have hadd : addAll files known (spec :: rest) =
            addAll files (known.insert spec.name predicate) rest := by
          simp only [addAll, he, hknown, Option.isSome_none, Bool.false_eq_true, if_false]
        rw [hadd]
        rcases ih (known.insert spec.name predicate) with ⟨all, ho, hsound, hfresh⟩ | ⟨fault, ho, hfault⟩
        · have hrest : ∀ other ∈ rest, other.name ≠ spec.name ∧ known.find? other.name = none :=
            fun other hm => find?_eq_none_of_insert (hfresh other hm)
          refine .inl ⟨all, ho, hsound.cons hspec fun other hm => (hrest other hm).1, ?_⟩
          rw [List.forall_mem_cons]
          exact ⟨hknown, fun other hm => (hrest other hm).2⟩
        · refine .inr ⟨fault, ho, ?_⟩
          rcases hfault with hfault | ⟨other, hm, hother, rfl⟩
          · exact .inl (hfault.cons spec)
          · by_cases hne : other.name = spec.name
            · exact .inl (haveFault_of_namesake hm hne)
            · rw [NameMap.find?_insert, if_neg hne] at hother
              exact .inr ⟨other, List.mem_cons_of_mem _ hm, hother, rfl⟩
      · refine .inr ⟨.duplicatePredicate spec.name, ?_, .inr ⟨spec, by simp, hknown, rfl⟩⟩
        have hs : (known.find? spec.name).isSome = true := by
          rwa [Option.isSome_iff_ne_none]
        simp only [addAll, he, hs, if_true]
    · exact .inr ⟨fault, by simp only [addAll, he], .inl (.inl ⟨spec, by simp, hbad⟩)⟩

lemma classify_cases (files : List File) (specs : List PredicateSpec) :
    (∃ changes, classify files specs = .ok changes ∧ AreSound specs) ∨
    ∃ fault, classify files specs = .error (.config fault) ∧ HaveFault specs fault := by
  rcases addAll_cases files .empty specs with ⟨all, ho, hsound, _⟩ | ⟨fault, ho, hfault⟩
  · exact .inl ⟨⟨files, all⟩, by simp only [classify, ho], hsound⟩
  · refine .inr ⟨fault, by simp only [classify, ho], ?_⟩
    rcases hfault with hfault | ⟨spec, _, hknown, _⟩
    · exact hfault
    · exact absurd rfl hknown

lemma exists_classify_iff {files : List File} {specs : List PredicateSpec} :
    (∃ changes, classify files specs = .ok changes) ↔ AreSound specs := by
  rcases classify_cases files specs with ⟨changes, h, hs⟩ | ⟨fault, h, hf⟩
  · exact ⟨fun _ => hs, fun _ => ⟨changes, h⟩⟩
  · simp [h, not_areSound_of_haveFault hf]

end ChangeSet

end Premerge.Change
