import Premerge.Proofs.Files.Beside
import Premerge.Run.Execution

namespace Premerge

open Premerge.Report (Directory)
open Premerge.Text.Utf8 (Octets decode)
open Premerge.World

variable {σ : Type}

structure Outcome.IsOf (tool : Tool) (o : Outcome) : Prop where
  toolName : o.toolName = tool.name
  reportName : o.reportName = tool.reportName
  kind : o.kind = tool.kind
  policy : o.policy = tool.effectivePolicy

namespace Workplace

def rawPath (p : Workplace) (tool : Tool) : Path :=
  p.reports.rawPath tool.reportName

structure Touches (p : Workplace) (tool : Tool) (w v : World σ) : Prop where
  programs : v.programs = w.programs
  environment : v.environment = w.environment
  files : v.files = w.files ∨ ∃ content, w.files.write (p.rawPath tool) content = .ok v.files

lemma Touches.of_same {p : Workplace} {tool : Tool} {w v : World σ}
    (hp : v.programs = w.programs) (he : v.environment = w.environment) (hf : v.files = w.files) :
    p.Touches tool w v :=
  ⟨hp, he, .inl hf⟩

lemma Touches.note {p : Workplace} {tool : Tool} {w v : World σ} (h : p.Touches tool w v)
    (what : Happening) : p.Touches tool w (v.note what) :=
  ⟨h.programs, h.environment, h.files⟩

lemma Touches.keeps {p : Workplace} {tool : Tool} {w v : World σ} (h : p.Touches tool w v) :
    w.files.Keeps v.files := by
  rcases h.files with hf | ⟨content, hf⟩
  · rw [hf]
    exact .refl _
  · exact FileTree.keeps_of_write hf

structure Separate (tools : List Tool) : Prop where
  distinct : (tools.map Tool.reportName).Nodup
  plain : ∀ tool ∈ tools, '/' ∉ tool.reportName.toList

def HasNoReports (p : Workplace) (files : FileTree) (tools : List Tool) : Prop :=
  ∀ tool ∈ tools, files.pathExists (p.rawPath tool) = false

lemma ne_of_nodup_map {α β : Type} {f : α → β} {l : List α} (h : (l.map f).Nodup)
    {place index : Nat} {a b : α} (ha : l[place]? = some a) (hb : l[index]? = some b)
    (hne : place ≠ index) : f b ≠ f a := by
  intro hf
  have hlt : place < (l.map f).length := by
    rw [List.length_map]
    exact (List.getElem?_eq_some_iff.mp ha).1
  refine hne ((List.getElem?_inj hlt h).mp ?_)
  rw [List.getElem?_map, List.getElem?_map, ha, hb, Option.map_some, Option.map_some, hf]

lemma Separate.reportName_ne {tools : List Tool} (h : Separate tools) {place index : Nat}
    {tool other : Tool} (ht : tools[place]? = some tool) (ho : tools[index]? = some other)
    (hne : place ≠ index) : other.reportName ≠ tool.reportName :=
  ne_of_nodup_map h.distinct ht ho hne

lemma Separate.reportName_ne_of_append {before after : List Tool} {tool earlier : Tool}
    (h : Separate (before ++ tool :: after)) (hm : earlier ∈ before) :
    earlier.reportName ≠ tool.reportName := by
  have hd := h.distinct
  rw [List.map_append, List.map_cons, List.nodup_append] at hd
  exact hd.2.2 _ (List.mem_map_of_mem hm) _ (.head _)

lemma isEntryName_raw {report : String} (h : '/' ∉ report.toList) :
    IsEntryName (report ++ Directory.rawSuffix) :=
  isEntryName_append h (by decide) (by decide)

lemma Touches.locate_of_ne {p : Workplace} {tool other : Tool} {w v : World σ}
    (h : p.Touches tool w v) (hn : '/' ∉ tool.reportName.toList)
    (ho : '/' ∉ other.reportName.toList) (hne : other.reportName ≠ tool.reportName) :
    v.files.locate (p.rawPath other) = w.files.locate (p.rawPath other) := by
  rcases h.files with hf | ⟨content, hf⟩
  · rw [hf]
  · exact FileTree.locate_write_of_ne (isEntryName_raw hn) (isEntryName_raw ho) (append_ne hne _) hf

/-- Two worlds that differ at most in what happened, in the clock, and in files among the reports. -/
structure Alike (p : Workplace) (w v : World σ) : Prop where
  programs : v.programs = w.programs
  environment : v.environment = w.environment
  files : w.files.AlikeBeside p.reports.path v.files

lemma Alike.refl (p : Workplace) (w : World σ) : p.Alike w w :=
  ⟨rfl, rfl, .refl _ _⟩

lemma Alike.touches {p : Workplace} {tool : Tool} {w v u : World σ} (h : p.Alike w v)
    (ht : p.Touches tool v u) (hn : '/' ∉ tool.reportName.toList) : p.Alike w u := by
  refine ⟨ht.programs.trans h.programs, ht.environment.trans h.environment, ?_⟩
  rcases ht.files with hf | ⟨content, hf⟩
  · rw [hf]
    exact h.files
  · exact h.files.write (isEntryName_raw hn) hf

lemma start_ok {w v : World σ} {c : Command} {behaviour : Behaviour}
    (h : w.start c = (.ok behaviour, v)) :
    w.behaviourOf c = .ok behaviour ∧ v = w.note (.called c.words) := by
  unfold World.start at h
  split at h
  · cases h
  next hb =>
    cases h
    exact ⟨hb, rfl⟩

lemma start_error {w v : World σ} {c : Command} {cause : SystemError}
    (h : w.start c = (.error cause, v)) : w.behaviourOf c = .error cause ∧ v = w := by
  unfold World.start at h
  split at h
  next hb =>
    cases h
    exact ⟨hb, rfl⟩
  · cases h

def command (p : Workplace) (tool : Tool) (program : String) (arguments : List String) : Command :=
  ⟨program, arguments, tool.env, some p.directory⟩

lemma startProgram_ok {p : Workplace} {tool : Tool} {w v : World σ} {words : List String}
    {behaviour : Behaviour} (h : p.startProgram tool w words = (.ok behaviour, v)) :
    ∃ program arguments files, words = program :: arguments ∧
      w.files.write (p.rawPath tool) [] = .ok files ∧
      World.behaviourOf { w with files } (p.command tool program arguments) = .ok behaviour ∧
      v = (World.note { w with files } (.called words)).note (.toolStarted tool.name) := by
  unfold startProgram at h
  split at h
  · cases h
  next program arguments =>
    split at h
    · cases h
    next files hw =>
      split at h
      · cases h
      next hs =>
        cases h
        obtain ⟨hb, rfl⟩ := start_ok hs
        exact ⟨program, arguments, files, rfl, hw, hb, rfl⟩

lemma startProgram_error {p : Workplace} {tool : Tool} {w v : World σ} {words : List String}
    {e : Failure} (h : p.startProgram tool w words = (.error e, v)) :
    (words = [] ∧ e = .config (.emptyCommand tool.name) ∧ v = w) ∨
    (∃ cause, words ≠ [] ∧ w.files.write (p.rawPath tool) [] = .error cause ∧ e = .system cause ∧
      v = w) ∨
    ∃ program arguments files cause, words = program :: arguments ∧
      w.files.write (p.rawPath tool) [] = .ok files ∧
      World.behaviourOf { w with files } (p.command tool program arguments) = .error cause ∧
      e = .tool tool.name (startFault program cause) ∧ v = { w with files } := by
  unfold startProgram at h
  split at h
  · cases h
    exact .inl ⟨rfl, rfl, rfl⟩
  next program arguments =>
    split at h
    next cause hw =>
      cases h
      exact .inr (.inl ⟨cause, by simp, hw, rfl, rfl⟩)
    next files hw =>
      split at h
      next cause _ hs =>
        cases h
        obtain ⟨hb, rfl⟩ := start_error hs
        exact .inr (.inr ⟨program, arguments, files, cause, rfl, hw, hb, rfl, rfl⟩)
      · cases h

lemma launch_cases (p : Workplace) (tool : Tool) (w : World σ) :
    (∃ reason, tool.dispatch p.changes = .skip reason ∧
      p.launch tool w = (.over (.skipped tool reason), w.log (.toolSkipped tool.name reason))) ∨
    (∃ words e v, tool.dispatch p.changes = .run words ∧
      p.startProgram tool w words = (.error e, v) ∧
      p.launch tool w = (.over (p.fail tool v.now e v).1, (p.fail tool v.now e v).2)) ∨
    ∃ words behaviour v, tool.dispatch p.changes = .run words ∧
      p.startProgram tool w words = (.ok behaviour, v) ∧
      p.launch tool w = (.running ⟨tool, behaviour, v.now⟩, v) := by
  unfold launch
  cases hd : tool.dispatch p.changes with
  | skip reason => exact .inl ⟨reason, rfl, rfl⟩
  | run words =>
    rcases hs : p.startProgram tool w words with ⟨e | behaviour, v⟩
    · exact .inr (.inl ⟨words, e, v, rfl, hs, by simp [hs]⟩)
    · exact .inr (.inr ⟨words, behaviour, v, rfl, hs, by simp [hs]⟩)

lemma launch_running {p : Workplace} {tool : Tool} {w v : World σ} {process : Process}
    (h : p.launch tool w = (.running process, v)) :
    ∃ program arguments files, tool.dispatch p.changes = .run (program :: arguments) ∧
      w.files.write (p.rawPath tool) [] = .ok files ∧
      World.behaviourOf { w with files } (p.command tool program arguments)
        = .ok process.behaviour ∧
      process = ⟨tool, process.behaviour, w.now⟩ ∧
      v = (World.note { w with files } (.called (program :: arguments))).note
        (.toolStarted tool.name) := by
  rcases p.launch_cases tool w with
    ⟨reason, _, hl⟩ | ⟨words, e, u, _, _, hl⟩ | ⟨words, behaviour, u, hd, hs, hl⟩
  · cases hl ▸ h
  · cases hl ▸ h
  · cases hl ▸ h
    obtain ⟨program, arguments, files, rfl, hw, hb, rfl⟩ := startProgram_ok hs
    exact ⟨program, arguments, files, hd, hw, hb, rfl, rfl⟩

lemma touches_startProgram (p : Workplace) (tool : Tool) (w : World σ) (words : List String) :
    p.Touches tool w (p.startProgram tool w words).2 ∧
      (p.startProgram tool w words).2.now = w.now := by
  rcases hs : p.startProgram tool w words with ⟨e | behaviour, v⟩
  · rcases startProgram_error hs with
      ⟨_, _, rfl⟩ | ⟨cause, _, _, _, rfl⟩ | ⟨program, arguments, files, cause, _, hw, _, _, rfl⟩
    · exact ⟨.of_same rfl rfl rfl, rfl⟩
    · exact ⟨.of_same rfl rfl rfl, rfl⟩
    · exact ⟨⟨rfl, rfl, .inr ⟨[], hw⟩⟩, rfl⟩
  · obtain ⟨program, arguments, files, _, hw, _, rfl⟩ := startProgram_ok hs
    exact ⟨⟨rfl, rfl, .inr ⟨[], hw⟩⟩, rfl⟩

lemma touches_launch (p : Workplace) (tool : Tool) (w : World σ) :
    p.Touches tool w (p.launch tool w).2 ∧ (p.launch tool w).2.now = w.now := by
  rcases p.launch_cases tool w with
    ⟨reason, _, hl⟩ | ⟨words, e, v, _, hs, hl⟩ | ⟨words, behaviour, v, _, hs, hl⟩
  · rw [hl]
    exact ⟨.of_same rfl rfl rfl, rfl⟩
  · have ht := p.touches_startProgram tool w words
    rw [hs] at ht
    rw [hl]
    exact ⟨ht.1.note _, ht.2⟩
  · have ht := p.touches_startProgram tool w words
    rw [hs] at ht
    rw [hl]
    exact ht

lemma isOf_launch {p : Workplace} {tool : Tool} {w v : World σ} {o : Outcome}
    (h : p.launch tool w = (.over o, v)) : o.IsOf tool ∧ o.isAborted = false := by
  rcases p.launch_cases tool w with
    ⟨reason, _, hl⟩ | ⟨words, e, u, _, _, hl⟩ | ⟨words, behaviour, u, _, _, hl⟩
  · cases hl ▸ h
    exact ⟨⟨rfl, rfl, rfl, rfl⟩, rfl⟩
  · cases hl ▸ h
    exact ⟨⟨rfl, rfl, rfl, rfl⟩, rfl⟩
  · cases hl ▸ h

lemma touches_close (p : Workplace) (process : Process) (w : World σ) :
    p.Touches process.tool w (p.close process w) ∧ (p.close process w).now = w.now := by
  unfold close
  split
  next files hw => exact ⟨⟨rfl, rfl, .inr ⟨_, hw⟩⟩, rfl⟩
  · exact ⟨.of_same rfl rfl rfl, rfl⟩

lemma finish_world (p : Workplace) (process : Process) (time : Nat) (w : World σ) :
    ∃ event, (p.finish process time w).2 = (p.close process { w with now := time }).log event := by
  unfold finish
  dsimp only
  split
  · exact ⟨_, rfl⟩
  · exact ⟨_, rfl⟩

lemma touches_finish (p : Workplace) (process : Process) (time : Nat) (w : World σ) :
    p.Touches process.tool w (p.finish process time w).2 ∧
      (p.finish process time w).2.now = time := by
  obtain ⟨ht, hn⟩ := p.touches_close process { w with now := time }
  obtain ⟨event, he⟩ := p.finish_world process time w
  have hc : p.Touches process.tool w (p.close process { w with now := time }) :=
    ⟨ht.programs, ht.environment, ht.files⟩
  rw [he]
  generalize p.close process { w with now := time } = v at hc hn
  exact ⟨hc.note _, hn⟩

lemma isOf_finish (p : Workplace) (process : Process) (time : Nat) (w : World σ) :
    (p.finish process time w).1.IsOf process.tool ∧
      (p.finish process time w).1.isAborted = false := by
  unfold finish
  dsimp only
  split
  · exact ⟨⟨rfl, rfl, rfl, rfl⟩, rfl⟩
  · exact ⟨⟨rfl, rfl, rfl, rfl⟩, rfl⟩

lemma isOf_cutOff (p : Workplace) (tool : Tool) (w : World σ) :
    (p.cutOff tool w).IsOf tool ∧ (p.cutOff tool w).isAborted = true :=
  ⟨⟨rfl, rfl, rfl, rfl⟩, rfl⟩

end Workplace

end Premerge
