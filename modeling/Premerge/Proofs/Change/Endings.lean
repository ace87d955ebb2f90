import Mathlib.Data.List.Infix
import Premerge.Config.Basic
import Premerge.Proofs.Tool.Dispatching

/-! A recursive wildcard with a star behind it stands for any beginning of a path. So the standard
predicates are about the ends of paths and their first parts, at any depth of directories. -/

namespace Premerge.Change

namespace Glob

def literals (text : List Char) : List Token :=
  text.map .literal

lemma matchesFrom_literal (c : Char) (tokens : List Token) (text : List Char) :
    matchesFrom (.literal c :: tokens) text = true ↔
      ∃ rest, text = c :: rest ∧ matchesFrom tokens rest = true := by
  cases text with
  | nil => simp [matchesFrom]
  | cons first rest =>
    simp only [matchesFrom, Token.accepts, Bool.and_eq_true, beq_iff_eq, List.cons.injEq]
    constructor
    · rintro ⟨rfl, hm⟩
      exact ⟨rest, ⟨rfl, rfl⟩, hm⟩
    · rintro ⟨_, ⟨rfl, rfl⟩, hm⟩
      exact ⟨rfl, hm⟩

lemma matchesFrom_literals (front : List Char) (tokens : List Token) (text : List Char) :
    matchesFrom (literals front ++ tokens) text = true ↔
      ∃ rest, text = front ++ rest ∧ matchesFrom tokens rest = true := by
  induction front generalizing text with
  | nil => simp [literals]
  | cons c front ih =>
    rw [literals, List.map_cons, List.cons_append, matchesFrom_literal]
    constructor
    · rintro ⟨behind, rfl, hm⟩
      obtain ⟨rest, rfl, hrest⟩ := (ih behind).mp hm
      exact ⟨rest, rfl, hrest⟩
    · rintro ⟨rest, rfl, hrest⟩
      exact ⟨front ++ rest, rfl, (ih _).mpr ⟨rest, rfl, hrest⟩⟩

lemma matchesFrom_literals_end (ending text : List Char) :
    matchesFrom (literals ending) text = true ↔ text = ending := by
  have hm := matchesFrom_literals ending [] text
  simpa [matchesFrom] using hm

lemma mem_withinPart {text rest : List Char} :
    rest ∈ withinPart text ↔ ∃ skipped, text = skipped ++ rest ∧ '/' ∉ skipped := by
  induction text with
  | nil => simp [withinPart]
  | cons c text ih =>
    rw [withinPart, List.mem_cons]
    constructor
    · rintro (rfl | hm)
      · exact ⟨[], rfl, by simp⟩
      · by_cases hc : c = '/'
        · simp [hc] at hm
        · rw [if_neg hc] at hm
          obtain ⟨skipped, rfl, hs⟩ := ih.mp hm
          exact ⟨c :: skipped, rfl, by simp [hs, Ne.symm hc]⟩
    · rintro ⟨skipped, he, hs⟩
      cases skipped with
      | nil => exact .inl he.symm
      | cons first skipped =>
        obtain ⟨rfl, rfl⟩ := List.cons.inj he
        have hc : c ≠ '/' := by
          rintro rfl
          simp at hs
        rw [if_neg hc]
        exact .inr (ih.mpr ⟨skipped, rfl, fun h => hs (by simp [h])⟩)

lemma mem_behindSlashes {text rest : List Char} :
    rest ∈ behindSlashes text ↔ ∃ lead, text = lead ++ '/' :: rest := by
  induction text with
  | nil => simp [behindSlashes]
  | cons c text ih =>
    have hlater : (∃ lead, c :: text = lead ++ '/' :: rest) ↔
        (c = '/' ∧ text = rest) ∨ rest ∈ behindSlashes text := by
      rw [ih]
      constructor
      · rintro ⟨lead, he⟩
        cases lead with
        | nil => simpa using Or.inl (List.cons.inj he)
        | cons first lead => exact .inr ⟨lead, (List.cons.inj he).2⟩
      · rintro (⟨rfl, rfl⟩ | ⟨lead, rfl⟩)
        · exact ⟨[], rfl⟩
        · exact ⟨c :: lead, rfl⟩
    rw [hlater, behindSlashes]
    by_cases hc : c = '/' <;> simp [hc, eq_comm]

lemma exists_last_part (text : List Char) :
    ∃ last, '/' ∉ last ∧ last ∈ partStarts text := by
  induction text with
  | nil => exact ⟨[], by simp, by simp [partStarts]⟩
  | cons c text ih =>
    obtain ⟨last, hs, hl⟩ := ih
    rw [partStarts, List.mem_cons, mem_behindSlashes] at hl
    simp only [partStarts, List.mem_cons, mem_behindSlashes]
    rcases hl with rfl | ⟨lead, rfl⟩
    · by_cases hc : c = '/'
      · exact ⟨last, hs, .inr ⟨[], by rw [hc]; rfl⟩⟩
      · exact ⟨c :: last, by simp [hs, Ne.symm hc], .inl rfl⟩
    · exact ⟨last, hs, .inr ⟨c :: lead, rfl⟩⟩

lemma suffix_of_mem_partStarts {text rest : List Char} (h : rest ∈ partStarts text) :
    rest <:+ text := by
  rw [partStarts, List.mem_cons, mem_behindSlashes] at h
  rcases h with rfl | ⟨lead, rfl⟩
  · exact List.suffix_refl rest
  · exact ⟨lead ++ ['/'], by simp⟩

lemma partStarts_append {front ending : List Char} {start : List Char}
    (h : start ∈ partStarts front) : start ++ ending ∈ partStarts (front ++ ending) := by
  rw [partStarts, List.mem_cons, mem_behindSlashes] at h ⊢
  rcases h with rfl | ⟨lead, rfl⟩
  · exact .inl rfl
  · exact .inr ⟨lead, by simp⟩

lemma matchesFrom_recursive_sequence (ending text : List Char) :
    matchesFrom (.recursive :: .sequence :: literals ending) text = true ↔ ending <:+ text := by
  simp only [matchesFrom, List.any_eq_true, matchesFrom_literals_end]
  constructor
  · rintro ⟨start, hs, rest, hr, rfl⟩
    obtain ⟨skipped, rfl, _⟩ := mem_withinPart.mp hr
    exact (List.suffix_append skipped rest).trans (suffix_of_mem_partStarts hs)
  · rintro ⟨front, rfl⟩
    obtain ⟨last, hs, hl⟩ := exists_last_part front
    exact ⟨last ++ ending, partStarts_append hl, ending, mem_withinPart.mpr ⟨last, rfl, hs⟩, rfl⟩

lemma suffix_of_suffix_below {lead rest ending : List Char} (he : '/' ∉ ending)
    (h : ending <:+ lead ++ '/' :: rest) : ending <:+ rest := by
  have hnot : ¬ '/' :: rest <:+ ending := fun hs => he (hs.subset List.mem_cons_self)
  rcases List.suffix_or_suffix_of_suffix h (List.suffix_append lead ('/' :: rest)) with hs | hs
  · rcases List.suffix_cons_iff.mp hs with rfl | hs
    · exact absurd List.suffix_rfl hnot
    · exact hs
  · exact absurd hs hnot

lemma matchesFrom_below (lead : List Char) {ending : List Char} (he : '/' ∉ ending)
    (text : List Char) :
    matchesFrom (literals (lead ++ ['/']) ++ .recursive :: .sequence :: literals ending) text = true ↔
      ending <:+ text ∧ lead ++ ['/'] <+: text := by
  rw [matchesFrom_literals]
  simp only [matchesFrom_recursive_sequence]
  constructor
  · rintro ⟨rest, rfl, hs⟩
    exact ⟨hs.trans (List.suffix_append _ rest), List.prefix_append _ rest⟩
  · rintro ⟨hs, rest, rfl⟩
    have hbelow : ending <:+ lead ++ '/' :: rest := by simpa using hs
    exact ⟨rest, rfl, suffix_of_suffix_below he hbelow⟩

lemma compile_python :
    compile "**/*.py" = .ok (.recursive :: .sequence :: literals ".py".toList) := by
  decide

lemma compile_core :
    compile "alws/**/*.py" =
      .ok (literals "alws/".toList ++ .recursive :: .sequence :: literals ".py".toList) := by
  decide

lemma fits_python_iff (path : String) : Fits "**/*.py" path ↔ ".py".toList <:+ path.toList := by
  simp [Fits, compile_python, matchesPath, matchesFrom_recursive_sequence]

lemma fits_core_iff (path : String) :
    Fits "alws/**/*.py" path ↔ ".py".toList <:+ path.toList ∧ "alws/".toList <+: path.toList := by
  have hslash : '/' ∉ ".py".toList := by decide
  have hbelow := matchesFrom_below "alws".toList hslash path.toList
  simpa [Fits, compile_core, matchesPath] using hbelow

end Glob

lemma areSound_standardPredicates : AreSound Config.standardPredicates := by
  have hpython : ∃ tokens, Glob.compile "**/*.py" = .ok tokens := ⟨_, Glob.compile_python⟩
  have hcore : ∃ tokens, Glob.compile "alws/**/*.py" = .ok tokens := ⟨_, Glob.compile_core⟩
  constructor
  · simp [Config.standardPredicates, PredicateSpec.Compiles, hpython, hcore]
  · decide

lemma matchesNamed_python_iff (file : File) :
    MatchesNamed Config.standardPredicates "python" file ↔
      (file.status = .added ∨ file.status = .modified) ∧ ".py".toList <:+ file.path.toList := by
  rw [← Glob.fits_python_iff]
  simp [MatchesNamed, PredicateSpec.Matches, Config.standardPredicates, StockTool.pythonPredicate,
    StockTool.corePredicate, and_comm]

lemma matchesNamed_core_iff (file : File) :
    MatchesNamed Config.standardPredicates "core" file ↔
      "alws/".toList <+: file.path.toList ∧
        MatchesNamed Config.standardPredicates "python" file := by
  have hnamed : MatchesNamed Config.standardPredicates "core" file ↔
      (file.status = .added ∨ file.status = .modified) ∧ Glob.Fits "alws/**/*.py" file.path := by
    simp [MatchesNamed, PredicateSpec.Matches, Config.standardPredicates, StockTool.pythonPredicate,
      StockTool.corePredicate, and_comm]
  rw [hnamed, Glob.fits_core_iff, matchesNamed_python_iff, ← and_assoc, and_comm]

lemma matching_core (files : List File) :
    matching Config.standardPredicates "core" files =
      (matching Config.standardPredicates "python" files).filter
        fun path => "alws/".toList <+: path.toList := by
  rw [matching, matching, List.filter_map, List.filter_filter]
  congr 1
  apply List.filter_congr
  intro file _
  simp only [matchesNamed_core_iff, Function.comp_apply, Bool.decide_and]

lemma render_bandit (files : List String) :
    StockTool.bandit.tool.render files =
      ["docker", "compose", "run", "--rm", "-T", "web_server", "bandit", "-c", "pyproject.toml"] ++
        files := by
  have hplace : Tool.filesPlaceholder ∈ StockTool.bandit.tool.command := by decide
  rw [Tool.render, if_neg fun h => h.1 hplace]
  simp [StockTool.tool, StockTool.forFiles, StockTool.inContainer, StockTool.name, Tool.ofCommand,
    Tool.gatedOn, Tool.withFilesFrom, Tool.withTimeout, Tool.substitute, Tool.filesPlaceholder]

/-- A core file is a file in Python, so the search for security flaws is given every one of them,
although it depends on the predicate of Python. -/
theorem classify_standardPredicates (files : List File) :
    ∃ changes, ChangeSet.classify files Config.standardPredicates = .ok changes ∧
      changes.filesFor "python" = (files.filter fun file =>
        (file.status = .added ∨ file.status = .modified) ∧
          ".py".toList <:+ file.path.toList).map File.path ∧
      changes.filesFor "core" =
        (changes.filesFor "python").filter (fun path => "alws/".toList <+: path.toList) ∧
      (changes.holds "core" = true → changes.holds "python" = true) ∧
      ∀ words, StockTool.bandit.tool.dispatch changes = .run words ↔
        changes.filesFor "core" ≠ [] ∧
          words = ["docker", "compose", "run", "--rm", "-T", "web_server", "bandit", "-c",
            "pyproject.toml"] ++ changes.filesFor "core" := by
  obtain ⟨changes, hc⟩ : ∃ changes, ChangeSet.classify files Config.standardPredicates = .ok changes :=
    ChangeSet.exists_classify_iff.mpr areSound_standardPredicates
  have hholds : changes.holds "core" = true → changes.holds "python" = true := by
    rw [ChangeSet.holds_classify_iff hc, ChangeSet.holds_classify_iff hc]
    rintro ⟨file, hm, hcore⟩
    exact ⟨file, hm, ((matchesNamed_core_iff file).mp hcore).2⟩
  refine ⟨changes, hc, ?_, ?_, hholds, fun words => ?_⟩
  · rw [ChangeSet.filesFor_classify hc, matching]
    simp only [matchesNamed_python_iff]
  · rw [ChangeSet.filesFor_classify hc, ChangeSet.filesFor_classify hc, matching_core]
  · rw [Tool.dispatch_eq_run_iff]
    constructor
    · rintro ⟨_, _, hfiles, rfl⟩
      exact ⟨hfiles "core" rfl, render_bandit _⟩
    · rintro ⟨hfiles, rfl⟩
      have hcore : changes.holds "core" = true := by
        rw [ChangeSet.holds_classify_iff hc, ← not_not (a := ∃ _ ∈ _, _), ← matching_eq_nil_iff,
          ← ChangeSet.filesFor_classify hc]
        exact hfiles
      refine ⟨rfl, ?_, ?_, (render_bandit _).symm⟩
      · rintro _ ⟨⟩
        exact hholds hcore
      · rintro _ ⟨⟩
        exact hfiles

end Premerge.Change
