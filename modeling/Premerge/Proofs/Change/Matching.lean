import Premerge.Proofs.Change.Predicates

namespace Premerge.Change

open Premerge.Data

def Glob.Fits (glob path : String) : Prop :=
  ∃ tokens, Glob.compile glob = .ok tokens ∧ Glob.matchesPath tokens path = true

instance (glob path : String) : Decidable (Glob.Fits glob path) :=
  match h : Glob.compile glob with
  | .error _ => isFalse (by simp [Glob.Fits, h])
  | .ok tokens => decidable_of_iff (Glob.matchesPath tokens path = true) (by simp [Glob.Fits, h])

namespace PredicateSpec

def Matches (spec : PredicateSpec) (file : File) : Prop :=
  (∃ glob ∈ spec.globs, Glob.Fits glob file.path) ∧
    (spec.addedOrModifiedOnly = true → file.status = .added ∨ file.status = .modified)

instance (spec : PredicateSpec) (file : File) : Decidable (spec.Matches file) :=
  inferInstanceAs (Decidable (_ ∧ _))

lemma any_matchesPath_iff {spec : PredicateSpec} {globs : List String}
    {patterns : List (List Glob.Token)} (h : spec.patterns globs = .ok patterns) (path : String) :
    patterns.any (Glob.matchesPath · path) = true ↔ ∃ glob ∈ globs, Glob.Fits glob path := by
  induction globs generalizing patterns with
  | nil =>
    cases h
    simp
  | cons glob rest ih =>
    rcases hc : Glob.compile glob with cause | tokens
    · simp only [PredicateSpec.patterns, hc] at h
      cases h
    · rcases hm : spec.patterns rest with cause | more <;>
        simp only [PredicateSpec.patterns, hc, hm] at h <;> cases h
      have hfits : Glob.Fits glob path ↔ Glob.matchesPath tokens path = true := by
        simp [Glob.Fits, hc]
      rw [List.any_cons, Bool.or_eq_true, ih hm, ← hfits]
      simp only [List.mem_cons, exists_eq_or_imp]

lemma selects_iff {spec : PredicateSpec} {patterns : List (List Glob.Token)}
    (h : spec.patterns spec.globs = .ok patterns) (file : File) :
    spec.selects patterns file = true ↔ spec.Matches file := by
  have hstatus : file.status.isAddedOrModified = true ↔
      file.status = .added ∨ file.status = .modified := by
    cases file.status <;> decide
  rw [selects, Bool.and_eq_true, any_matchesPath_iff h, Bool.or_eq_true, Bool.not_eq_true', hstatus,
    Matches, and_comm, ← Bool.not_eq_true, ← imp_iff_not_or]

def matching (spec : PredicateSpec) (files : List File) : List String :=
  (files.filter fun file => spec.Matches file).map File.path

lemma evaluate_eq_ok {spec : PredicateSpec} {files : List File} {predicate : Predicate}
    (h : spec.evaluate files = .ok predicate) :
    predicate = ⟨spec.name, !(spec.matching files).isEmpty, spec.matching files⟩ := by
  rcases hp : spec.patterns spec.globs with cause | patterns <;> simp only [evaluate, hp] at h <;>
    cases h
  have hsame : files.filter (spec.selects patterns) = files.filter fun file => spec.Matches file :=
    List.filter_congr fun file _ => by
      rw [Bool.eq_iff_iff, selects_iff hp, decide_eq_true_eq]
  rw [hsame, matching]

end PredicateSpec

def MatchesNamed (specs : List PredicateSpec) (name : String) (file : File) : Prop :=
  ∃ spec ∈ specs, spec.name = name ∧ spec.Matches file

instance (specs : List PredicateSpec) (name : String) (file : File) :
    Decidable (MatchesNamed specs name file) :=
  inferInstanceAs (Decidable (∃ _ ∈ _, _))

def matching (specs : List PredicateSpec) (name : String) (files : List File) : List String :=
  (files.filter fun file => MatchesNamed specs name file).map File.path

lemma matching_eq_nil_iff {specs : List PredicateSpec} {name : String} {files : List File} :
    matching specs name files = [] ↔ ¬∃ file ∈ files, MatchesNamed specs name file := by
  simp [matching]

lemma matching_of_mem {specs : List PredicateSpec} {spec : PredicateSpec}
    (hnames : (specs.map PredicateSpec.name).Nodup) (hm : spec ∈ specs) (files : List File) :
    matching specs spec.name files = spec.matching files := by
  have honly : ∀ file, MatchesNamed specs spec.name file ↔ spec.Matches file := by
    intro file
    constructor
    · rintro ⟨other, ho, hname, hmatch⟩
      rwa [List.inj_on_of_nodup_map hnames ho hm hname] at hmatch
    · exact fun hmatch => ⟨spec, hm, rfl, hmatch⟩
  simp only [matching, PredicateSpec.matching, honly]

lemma matching_of_unknown {specs : List PredicateSpec} {name : String}
    (hnone : ∀ spec ∈ specs, spec.name ≠ name) (files : List File) :
    matching specs name files = [] := by
  rw [matching_eq_nil_iff]
  rintro ⟨file, _, spec, hm, hname, _⟩
  exact hnone spec hm hname

namespace ChangeSet

lemma find?_addAll {files : List File} {known all : NameMap Predicate} {specs : List PredicateSpec}
    (h : addAll files known specs = .ok all) (name : String) :
    (all.find? name = known.find? name ∧ ∀ spec ∈ specs, spec.name ≠ name) ∨
    ∃ spec ∈ specs, spec.name = name ∧ ∃ predicate, spec.evaluate files = .ok predicate ∧
      all.find? name = some predicate := by
  induction specs generalizing known with
  | nil =>
    cases h
    exact .inl ⟨rfl, fun _ hm => nomatch hm⟩
  | cons spec rest ih =>
    rw [addAll] at h
    rcases he : spec.evaluate files with e | predicate <;> simp only [he] at h
    · cases h
    · split at h
      · cases h
      · rcases ih h with ⟨hsame, hnone⟩ | ⟨other, hm, hother⟩
        · by_cases hname : spec.name = name
          · rw [NameMap.find?_insert, if_pos hname.symm] at hsame
            exact .inr ⟨spec, by simp, hname, predicate, he, hsame⟩
          · rw [NameMap.find?_insert, if_neg (Ne.symm hname)] at hsame
            refine .inl ⟨hsame, ?_⟩
            rw [List.forall_mem_cons]
            exact ⟨hname, hnone⟩
        · exact .inr ⟨other, List.mem_cons_of_mem _ hm, hother⟩

variable {files : List File} {specs : List PredicateSpec} {changes : ChangeSet}

lemma predicate?_classify (h : classify files specs = .ok changes) (name : String) :
    (changes.predicate? name = none ∧ matching specs name files = []) ∨
    changes.predicate? name =
      some ⟨name, !(matching specs name files).isEmpty, matching specs name files⟩ := by
  have hnames := (exists_classify_iff.mp ⟨changes, h⟩).2
  rcases ha : addAll files .empty specs with e | all <;> simp only [classify, ha] at h <;> cases h
  rcases find?_addAll ha name with ⟨hfind, hnone⟩ | ⟨spec, hm, rfl, predicate, he, hfind⟩
  · exact .inl ⟨hfind, matching_of_unknown hnone files⟩
  · rw [predicate?, hfind, PredicateSpec.evaluate_eq_ok he, matching_of_mem hnames hm]
    exact .inr rfl

lemma filesFor_classify (h : classify files specs = .ok changes) (name : String) :
    changes.filesFor name = matching specs name files := by
  rcases predicate?_classify h name with ⟨hp, hnil⟩ | hp
  · rw [filesFor, hp, hnil]
  · rw [filesFor, hp]

lemma holds_classify_iff (h : classify files specs = .ok changes) (name : String) :
    changes.holds name = true ↔ ∃ file ∈ files, MatchesNamed specs name file := by
  have hany := @matching_eq_nil_iff specs name files
  rcases predicate?_classify h name with ⟨hp, hnil⟩ | hp
  · simpa [holds, hp] using hany.mp hnil
  · rw [holds, hp, Bool.not_eq_true', List.isEmpty_eq_false_iff, Ne, hany, not_not]

end ChangeSet

end Premerge.Change
