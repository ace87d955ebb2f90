import Premerge.Proofs.Run.Ending

namespace Premerge

open Premerge.World

variable {σ : Type}

def Outcome.untimed (o : Outcome) : Outcome :=
  { o with durationMs := 0 }

lemma Outcome.isOf_untimed {tool : Tool} {o : Outcome} : o.untimed.IsOf tool ↔ o.IsOf tool :=
  ⟨fun h => ⟨h.toolName, h.reportName, h.kind, h.policy⟩,
    fun h => ⟨h.toolName, h.reportName, h.kind, h.policy⟩⟩

def Launch.foretold? : Launch → Option Outcome
  | .over o => some o.untimed
  | .running process => process.end?.map fun time => (process.outcome time).untimed

lemma Process.foretold?_eq (process : Process) :
    (Launch.running process).foretold? =
      (Launch.running { process with began := 0 }).foretold? := by
  have hs : process.span? = Process.span? { process with began := 0 } := rfl
  simp only [Launch.foretold?, Process.end?, hs]
  rcases Process.span? { process with began := 0 } with _ | span
  · rfl
  · simp only [Option.map_some, Process.outcome, Outcome.untimed, Process.writtenAt,
      Process.writtenBy, Nat.add_sub_cancel_left]
    rfl

namespace Workplace

def execute? (p : Workplace) (tool : Tool) (w : World σ) : Option Outcome :=
  match p.launch tool w with
  | (.over o, _) => some o
  | (.running process, v) => process.end?.map fun time => (p.finish process time v).1

def commandOf? (p : Workplace) (tool : Tool) : Option Command :=
  match tool.dispatch p.changes with
  | .run (program :: arguments) => some (p.command tool program arguments)
  | _ => none

/-- What the program of the tool does is the same, whatever files stand among the reports. -/
def StartsAlike (p : Workplace) (w : World σ) (tool : Tool) : Prop :=
  ∀ c ∈ p.commandOf? tool, ∀ files, w.files.AlikeBeside p.reports.path files →
    World.behaviourOf { w with files } c = w.behaviourOf c

def Ends (p : Workplace) (w : World σ) (tool : Tool) : Prop :=
  ∀ c ∈ p.commandOf? tool, ∀ behaviour ∈ (w.behaviourOf c).toOption,
    (Process.mk tool behaviour 0).span?.isSome

lemma commandOf?_run {p : Workplace} {tool : Tool} {program : String} {arguments : List String}
    (h : tool.dispatch p.changes = .run (program :: arguments)) :
    p.commandOf? tool = some (p.command tool program arguments) := by
  rw [commandOf?, h]

lemma directory_of_commandOf? {p : Workplace} {tool : Tool} {c : Command}
    (h : c ∈ p.commandOf? tool) : c.directory = some p.directory := by
  unfold commandOf? at h
  split at h
  · cases h
    rfl
  · cases h

lemma startsAlike_of_directory {p : Workplace} {w : World σ} {tool : Tool} {location : Location}
    {asDirectory : Bool}
    (hd : w.files.locate p.directory = .ok ⟨location, some .directory, asDirectory⟩)
    (hs : ∀ c ∈ p.commandOf? tool, '/' ∈ c.program.toList → (w.behaviourOf c).isOk) :
    p.StartsAlike w tool := by
  intro c hc files ha
  have hf := FileTree.locate_directory ha.1 (fun place => (ha.directory_iff place).mpr) hd
  have hp := directory_of_commandOf? hc
  have hfound := hs c hc
  simp only [World.behaviourOf, World.directoryOf, hp, hd, hf, ha.1] at hfound ⊢
  split
  · rfl
  next hnul =>
    rw [if_neg hnul] at hfound
    split
    next hnone =>
      rw [hnone] at hfound
      have hn : c.program.toList.contains '/' = false := by
        simpa [Except.isOk, Except.toBool] using hfound
      rw [World.absence, World.absence, hn]
      rfl
    · rfl

lemma execute?_untimed (p : Workplace) (tool : Tool) (w : World σ) :
    (p.execute? tool w).map Outcome.untimed = (p.launch tool w).1.foretold? := by
  unfold execute?
  rcases hl : p.launch tool w with ⟨o | process, v⟩
  · rfl
  · obtain ⟨rfl, _, ho⟩ := isOpen_launch hl
    simp only [Launch.foretold?, Option.map_map]
    congr 1
    funext time
    rw [Function.comp, finish_outcome time ho]

lemma isOf_foretold {p : Workplace} {tool : Tool} {w : World σ} {o : Outcome}
    (h : (p.launch tool w).1.foretold? = some o) : o.IsOf tool := by
  rcases hl : p.launch tool w with ⟨done | process, v⟩ <;> rw [hl] at h
  · cases h
    exact Outcome.isOf_untimed.mpr (isOf_launch hl).1
  · obtain ⟨rfl, _, _⟩ := isOpen_launch hl
    obtain ⟨time, _, rfl⟩ := Option.map_eq_some_iff.mp h
    exact ⟨rfl, rfl, rfl, rfl⟩

lemma behaviourOf_congr {w v : World σ} (hp : v.programs = w.programs)
    (he : v.environment = w.environment) (hf : v.files = w.files) (c : Command) :
    v.behaviourOf c = w.behaviourOf c := by
  rw [World.behaviourOf, World.behaviourOf, hp, he, hf]

lemma Alike.behaviourOf {p : Workplace} {tool : Tool} {w v : World σ} (h : p.Alike w v)
    (hn : '/' ∉ tool.reportName.toList) (hs : p.StartsAlike w tool) {program : String}
    {arguments : List String} (hd : tool.dispatch p.changes = .run (program :: arguments))
    {files : FileTree} (hw : v.files.write (p.rawPath tool) [] = .ok files) :
    World.behaviourOf { v with files } (p.command tool program arguments) =
      w.behaviourOf (p.command tool program arguments) := by
  have hf := h.files.write (isEntryName_raw hn) hw
  rw [← hs _ (commandOf?_run hd) files hf]
  exact behaviourOf_congr (w := { w with files }) (v := { v with files }) h.programs h.environment
    rfl _

lemma rawOutput_of_write {p : Workplace} {tool : Tool} {w : World σ} {files : FileTree}
    (h : w.files.write (p.rawPath tool) [] = .ok files) :
    p.rawOutput tool { w with files } = "" := by
  obtain ⟨location, hs⟩ := FileTree.stores_of_write h
  exact rawOutput_of_read (w := { w with files }) hs.read

lemma Alike.foretold? {p : Workplace} {tool : Tool} {w v : World σ} (h : p.Alike w v)
    (hn : '/' ∉ tool.reportName.toList) (hs : p.StartsAlike w tool)
    (hl : v.files.locate (p.rawPath tool) = w.files.locate (p.rawPath tool)) :
    (p.launch tool v).1.foretold? = (p.launch tool w).1.foretold? := by
  rw [launch_eq, launch_eq]
  cases hd : tool.dispatch p.changes with
  | skip reason => rfl
  | run words =>
    cases words with
    | nil => simp only [rawOutput_congr hl]
    | cons program arguments =>
      rcases hw : w.files.write (p.rawPath tool) [] with e | files
      · simp only [FileTree.write_error_of_locate hl hw, rawOutput_congr hl]
      · rcases hv : v.files.write (p.rawPath tool) [] with e | after
        · rw [FileTree.write_error_of_locate hl.symm hv] at hw
          cases hw
        · simp only [h.behaviourOf hn hs hd hv, (Alike.refl p w).behaviourOf hn hs hd hw,
            rawOutput_of_write hv, rawOutput_of_write hw]
          rcases w.behaviourOf (p.command tool program arguments) with e | behaviour
          · rfl
          · simp only [Process.foretold?_eq ⟨tool, behaviour, _⟩]

lemma Ends.foretold? {p : Workplace} {tool : Tool} {w : World σ} (h : p.Ends w tool)
    (hn : '/' ∉ tool.reportName.toList) (hs : p.StartsAlike w tool) :
    (p.launch tool w).1.foretold?.isSome := by
  rcases hl : p.launch tool w with ⟨o | process, v⟩
  · rfl
  · obtain ⟨program, arguments, files, hd, hw, hb, hp, _⟩ := launch_running hl
    rw [(Alike.refl p w).behaviourOf hn hs hd hw] at hb
    have hspan := h _ (commandOf?_run hd) process.behaviour (by rw [hb]; rfl)
    rw [hp, Launch.foretold?, Process.end?, Option.isSome_map, Option.isSome_map]
    exact hspan

end Workplace

end Premerge
