import Premerge.Proofs.Run.Touches

/-! A process that has its raw report ends with an outcome that depends on nothing but itself and
its time: what other tools do in the meantime does not show in it. -/

namespace Premerge

open Premerge.Text.Utf8 (Octets decode)
open Premerge.World

variable {σ : Type}

namespace Process

lemma endBefore?_eq_some_iff {process : Process} {deadline : Option Nat} {time : Nat} :
    process.endBefore? deadline = some time ↔
      process.end? = some time ∧ ∀ limit, deadline = some limit → time < limit := by
  unfold endBefore?
  cases process.end? with
  | none => simp
  | some ended =>
    cases deadline with
    | none => simp
    | some limit =>
      by_cases h : ended < limit
      · simp only [if_pos h, Option.some.injEq]
        constructor
        · rintro rfl
          exact ⟨rfl, by rintro _ rfl; exact h⟩
        · exact fun h => h.1
      · simp only [if_neg h, Option.some.injEq]
        constructor
        · exact fun h => by cases h
        · rintro ⟨rfl, hlt⟩
          exact (h (hlt limit rfl)).elim

lemma end?_of_endBefore? {process : Process} {deadline : Option Nat} {time : Nat}
    (h : process.endBefore? deadline = some time) : process.endBefore? none = some time :=
  endBefore?_eq_some_iff.mpr ⟨(endBefore?_eq_some_iff.mp h).1, by simp⟩

def status (process : Process) : ToolStatus :=
  if process.isTooLong then
    .errored (Failure.tool process.tool.name (Workplace.limitFault process.tool)).message
  else .finished (process.behaviour.exitCode?.getD Workplace.noExitCode)

def writtenAt (process : Process) (time : Nat) : String :=
  decode (process.writtenBy time)

def outcome (process : Process) (time : Nat) : Outcome :=
  { Outcome.ofTool process.tool process.status with
    output := process.writtenAt time
    durationMs := time - process.began }

lemma isAborted_outcome (process : Process) (time : Nat) :
    (process.outcome time).isAborted = false := by
  unfold outcome status
  split <;> rfl

end Process

namespace Workplace

def IsOpen (p : Workplace) (files : FileTree) (tool : Tool) : Prop :=
  ∃ location content, files.Stores (p.rawPath tool) location content

lemma IsOpen.keeps {p : Workplace} {files after : FileTree} {tool : Tool}
    (h : p.IsOpen files tool) (hk : files.Keeps after) : p.IsOpen after tool := by
  obtain ⟨location, _, hs⟩ := h
  obtain ⟨changed, hc⟩ := hs.keeps hk
  exact ⟨location, changed, hc⟩

lemma isOpen_launch {p : Workplace} {tool : Tool} {w v : World σ} {process : Process}
    (h : p.launch tool w = (.running process, v)) :
    process.tool = tool ∧ process.began = w.now ∧ p.IsOpen v.files tool := by
  obtain ⟨program, arguments, files, _, hw, _, hp, rfl⟩ := launch_running h
  obtain ⟨location, hs⟩ := FileTree.stores_of_write hw
  rw [hp]
  exact ⟨rfl, rfl, location, [], hs⟩

lemma rawOutput_of_read {p : Workplace} {tool : Tool} {w : World σ} {content : Octets}
    (h : w.files.read (p.rawPath tool) = .ok content) : p.rawOutput tool w = decode content := by
  unfold rawPath at h
  unfold rawOutput Report.Directory.textAt?
  rw [h]

lemma rawOutput_of_error {p : Workplace} {tool : Tool} {w : World σ} {e : SystemError}
    (h : w.files.read (p.rawPath tool) = .error e) : p.rawOutput tool w = "" := by
  unfold rawPath at h
  unfold rawOutput Report.Directory.textAt?
  rw [h]
  cases e <;> rfl

lemma rawOutput_congr {p : Workplace} {tool : Tool} {w v : World σ}
    (h : v.files.locate (p.rawPath tool) = w.files.locate (p.rawPath tool)) :
    p.rawOutput tool v = p.rawOutput tool w := by
  have hr := FileTree.read_of_locate h
  unfold rawPath at hr
  unfold rawOutput Report.Directory.textAt?
  rw [hr]

lemma rawOutput_of_not_exists {p : Workplace} {tool : Tool} {w : World σ}
    (h : w.files.pathExists (p.rawPath tool) = false) : p.rawOutput tool w = "" := by
  have hr : ∃ e, w.files.read (p.rawPath tool) = .error e := by
    unfold FileTree.pathExists at h
    unfold FileTree.read
    split at h
    · cases h
    next hn =>
      rcases hl : w.files.locate (p.rawPath tool) with e | ⟨location, _ | node, asDirectory⟩
      · exact ⟨e, rfl⟩
      · exact ⟨.notFound, rfl⟩
      · exact (hn _ _ _ hl).elim
  obtain ⟨e, he⟩ := hr
  exact rawOutput_of_error he

lemma read_close {p : Workplace} {process : Process} {w : World σ}
    (h : p.IsOpen w.files process.tool) :
    (p.close process w).files.read (p.rawPath process.tool) = .ok (process.writtenBy w.now) := by
  obtain ⟨location, _, hs⟩ := h
  have hw := hs.write (process.writtenBy w.now)
  unfold rawPath at hw
  unfold close
  simp only [hw]
  exact (hs.write_stores _).read

lemma finish_outcome {p : Workplace} {process : Process} {w : World σ} (time : Nat)
    (h : p.IsOpen w.files process.tool) : (p.finish process time w).1 = process.outcome time := by
  have hr := rawOutput_of_read (read_close (w := { w with now := time }) h)
  have hn : (p.close process { w with now := time }).now = time := (p.touches_close _ _).2
  unfold finish Process.outcome Process.status Process.writtenAt
  dsimp only
  rw [hn, hr]
  split
  · unfold fail
    rw [hn, hr]
  · rfl

def unstarted (tool : Tool) (e : Failure) (output : String) : Outcome :=
  { Outcome.ofTool tool (.errored e.message) with output }

lemma fail_fst (p : Workplace) (tool : Tool) (e : Failure) (w : World σ) :
    (p.fail tool w.now e w).1 = unstarted tool e (p.rawOutput tool w) := by
  simp [fail, unstarted, Outcome.ofTool]

lemma launch_eq (p : Workplace) (tool : Tool) (w : World σ) :
    (p.launch tool w).1 =
      match tool.dispatch p.changes with
      | .skip reason => .over (.skipped tool reason)
      | .run [] => .over (unstarted tool (.config (.emptyCommand tool.name)) (p.rawOutput tool w))
      | .run (program :: arguments) =>
        match w.files.write (p.rawPath tool) [] with
        | .error e => .over (unstarted tool (.system e) (p.rawOutput tool w))
        | .ok files =>
          match World.behaviourOf { w with files } (p.command tool program arguments) with
          | .error e => .over (unstarted tool (.tool tool.name (startFault program e))
              (p.rawOutput tool { w with files }))
          | .ok behaviour => .running ⟨tool, behaviour, w.now⟩ := by
  rcases p.launch_cases tool w with
    ⟨reason, hd, hl⟩ | ⟨words, e, v, hd, hs, hl⟩ | ⟨words, behaviour, v, hd, hs, hl⟩
  · rw [hl, hd]
  · rw [hl, hd]
    dsimp only
    rw [fail_fst]
    rcases startProgram_error hs with
      ⟨rfl, rfl, rfl⟩ | ⟨cause, hne, hw, rfl, rfl⟩ |
      ⟨program, arguments, files, cause, rfl, hw, hb, rfl, rfl⟩
    · rfl
    · obtain ⟨program, arguments, rfl⟩ := List.exists_cons_of_ne_nil hne
      simp only [hw]
    · simp only [hw, hb]
  · obtain ⟨program, arguments, files, rfl, hw, hb, rfl⟩ := startProgram_ok hs
    rw [hl, hd]
    simp only [hw, hb, World.note]

end Workplace

end Premerge
