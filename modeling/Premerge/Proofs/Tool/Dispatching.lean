import Premerge.Proofs.Change.Matching
import Premerge.Tool.Dispatch

namespace Premerge.Tool

open Premerge.Change

lemma substitute_eq_flatMap (files command : List String) :
    substitute files command =
      command.flatMap fun word => if word = filesPlaceholder then files else [word] := by
  induction command with
  | nil => rfl
  | cons word rest ih =>
    rw [substitute, List.flatMap_cons, ih]
    split <;> rfl

lemma filesPlaceholder_mem_substitute_iff {files command : List String} :
    filesPlaceholder ∈ substitute files command ↔
      filesPlaceholder ∈ command ∧ filesPlaceholder ∈ files := by
  rw [substitute_eq_flatMap, List.mem_flatMap]
  constructor
  · rintro ⟨word, hw, hmem⟩
    split at hmem
    next hplace => exact ⟨hplace ▸ hw, hmem⟩
    next hplace => exact absurd (List.mem_singleton.mp hmem).symm hplace
  · rintro ⟨hcommand, hfiles⟩
    exact ⟨filesPlaceholder, hcommand, by rwa [if_pos rfl]⟩

lemma render_eq (tool : Tool) (files : List String) :
    tool.render files =
      (tool.command.flatMap fun word => if word = filesPlaceholder then files else [word]) ++
        if filesPlaceholder ∉ tool.command ∧ tool.filesFrom.isSome then files else [] := by
  rw [render, substitute_eq_flatMap]
  split
  · rfl
  · rw [List.append_nil]

lemma filesPlaceholder_mem_render_iff {tool : Tool} {files : List String}
    (hnone : tool.filesFrom = none → files = []) :
    filesPlaceholder ∈ tool.render files ↔ filesPlaceholder ∈ files := by
  rw [render]
  by_cases hplace : filesPlaceholder ∈ tool.command
  · rw [if_neg fun h => h.1 hplace, filesPlaceholder_mem_substitute_iff, and_iff_right hplace]
  · have hfree : filesPlaceholder ∉ substitute files tool.command := fun h =>
      hplace (filesPlaceholder_mem_substitute_iff.mp h).1
    rcases hf : tool.filesFrom with _ | source
    · obtain rfl := hnone hf
      simp [hfree]
    · simp [hfree, hplace]

lemma dispatchFiles_eq_run_iff {tool : Tool} {changes : ChangeSet} {words : List String} :
    tool.dispatchFiles changes = .run words ↔
      (∀ source ∈ tool.filesFrom, changes.filesFor source ≠ []) ∧
        words = tool.render (tool.filesFrom.elim [] changes.filesFor) := by
  rw [dispatchFiles]
  rcases tool.filesFrom with _ | source
  · simp [@eq_comm _ words]
  · rcases hf : changes.filesFor source with _ | ⟨path, more⟩
    · simp [hf]
    · simp [hf, @eq_comm _ words]

lemma dispatch_eq_run_iff {tool : Tool} {changes : ChangeSet} {words : List String} :
    tool.dispatch changes = .run words ↔
      tool.enabled = true ∧ (∀ gate ∈ tool.gate, changes.holds gate = true) ∧
        (∀ source ∈ tool.filesFrom, changes.filesFor source ≠ []) ∧
          words = tool.render (tool.filesFrom.elim [] changes.filesFor) := by
  rw [dispatch, ← dispatchFiles_eq_run_iff]
  rcases tool.enabled with _ | _
  · simp
  · rcases tool.gate with _ | gate
    · simp
    · rcases hg : changes.holds gate with _ | _ <;> simp [hg]

def pathsFor (tool : Tool) (specs : List PredicateSpec) (files : List File) : List String :=
  tool.filesFrom.elim [] (matching specs · files)

theorem dispatch_classified {files : List File} {specs : List PredicateSpec} {changes : ChangeSet}
    (h : ChangeSet.classify files specs = .ok changes) (tool : Tool) :
    ((∃ words, tool.dispatch changes = .run words) ↔
      tool.enabled = true ∧
        (∀ gate ∈ tool.gate, ∃ file ∈ files, MatchesNamed specs gate file) ∧
          ∀ source ∈ tool.filesFrom, ∃ file ∈ files, MatchesNamed specs source file) ∧
    ∀ words, tool.dispatch changes = .run words →
      words =
        (tool.command.flatMap fun word =>
          if word = filesPlaceholder then tool.pathsFor specs files else [word]) ++
          (if filesPlaceholder ∉ tool.command ∧ tool.filesFrom.isSome
            then tool.pathsFor specs files else []) ∧
      (filesPlaceholder ∈ words ↔ filesPlaceholder ∈ tool.pathsFor specs files) := by
  have hfiles : changes.filesFor = (matching specs · files) :=
    funext (ChangeSet.filesFor_classify h)
  have hrun := fun words => @dispatch_eq_run_iff tool changes words
  simp only [ChangeSet.holds_classify_iff h, hfiles, Ne, matching_eq_nil_iff, not_not] at hrun
  constructor
  · constructor
    · rintro ⟨words, hw⟩
      obtain ⟨hon, hgate, hsource, _⟩ := (hrun words).mp hw
      exact ⟨hon, hgate, hsource⟩
    · rintro ⟨hon, hgate, hsource⟩
      exact ⟨_, (hrun _).mpr ⟨hon, hgate, hsource, rfl⟩⟩
  · intro words hw
    obtain ⟨_, _, _, rfl⟩ := (hrun words).mp hw
    refine ⟨render_eq tool _, filesPlaceholder_mem_render_iff fun hnone => ?_⟩
    rw [hnone, Option.elim_none]

def bracedFiles : List File :=
  [⟨"lib/b.py", .modified⟩, ⟨filesPlaceholder, .added⟩, ⟨"lib/old.py", .deleted⟩,
    ⟨"lib/b.py", .added⟩]

def bracedSpecs : List PredicateSpec :=
  [⟨"kept", ["*", "**/*.py"], true⟩, ⟨"library", ["lib/*"], false⟩]

def bracedTool : Tool :=
  { name := "black", gate := some "library",
    command := ["black", filesPlaceholder, "-q", filesPlaceholder], filesFrom := some "kept",
    policy := .advisory, kind := .generic, ownReportName := none, timeoutSecs := 0, env := .empty,
    enabled := true }

def bracedChanges : ChangeSet :=
  ⟨bracedFiles, .ofList [
    ("kept", ⟨"kept", true, ["lib/b.py", filesPlaceholder, "lib/b.py"]⟩),
    ("library", ⟨"library", true, ["lib/b.py", "lib/old.py", "lib/b.py"]⟩)]⟩

lemma classify_braced : ChangeSet.classify bracedFiles bracedSpecs = .ok bracedChanges := by
  decide +kernel

theorem dispatch_classified_braced :
    ChangeSet.classify bracedFiles bracedSpecs = .ok bracedChanges ∧
      bracedTool.dispatch bracedChanges =
        .run ["black", "lib/b.py", "\x7bfiles\x7d", "lib/b.py", "-q", "lib/b.py", "\x7bfiles\x7d",
          "lib/b.py"] := by
  obtain ⟨words, hrun⟩ := (dispatch_classified classify_braced bracedTool).1.mpr (by decide +kernel)
  obtain ⟨hwords, _⟩ := (dispatch_classified classify_braced bracedTool).2 words hrun
  refine ⟨classify_braced, ?_⟩
  rw [hrun, hwords]
  decide +kernel

end Premerge.Tool
