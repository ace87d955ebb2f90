import Premerge.Proofs.Run.Touches
import Premerge.Proofs.Tool.Dispatching
import Premerge.Proofs.Tool.Table

namespace Premerge

open Premerge.Change

variable {σ : Type}

namespace Tool

lemma head?_render_of_ne {tool : Tool} {program : String} (h : tool.command.head? = some program)
    (hp : program ≠ filesPlaceholder) (files : List String) :
    (tool.render files).head? = some program := by
  obtain ⟨arguments, hc⟩ := List.head?_eq_some_iff.mp h
  rw [render_eq, hc, List.flatMap_cons, if_neg hp]
  rfl

lemma head?_render_of_files {tool : Tool} (h : tool.command.head? = some filesPlaceholder)
    (path : String) (more : List String) : (tool.render (path :: more)).head? = some path := by
  obtain ⟨arguments, hc⟩ := List.head?_eq_some_iff.mp h
  rw [render_eq, hc, List.flatMap_cons, if_pos rfl]
  rfl

lemma render_nil (tool : Tool) : tool.render [] = tool.command.filter (· ≠ filesPlaceholder) := by
  rw [render_eq, ite_self, List.append_nil]
  induction tool.command with
  | nil => rfl
  | cons word rest ih =>
    by_cases hw : word = filesPlaceholder
    · simpa [hw] using ih
    · simpa [hw] using ih

lemma files_of_dispatch {tool : Tool} {changes : ChangeSet} {words : List String}
    (h : tool.dispatch changes = .run words) :
    (tool.filesFrom = none ∧ words = tool.render []) ∨
      ∃ source path more, tool.filesFrom = some source ∧
        changes.filesFor source = path :: more ∧ words = tool.render (path :: more) := by
  obtain ⟨_, _, hfiles, hwords⟩ := dispatch_eq_run_iff.mp h
  rcases hf : tool.filesFrom with _ | source <;> rw [hf] at hfiles hwords
  · exact .inl ⟨rfl, hwords⟩
  · obtain ⟨path, more, hpaths⟩ := List.exists_cons_of_ne_nil (hfiles source rfl)
    rw [Option.elim_some, hpaths] at hwords
    exact .inr ⟨source, path, more, rfl, hpaths, hwords⟩

lemma head?_of_dispatch_of_ne {tool : Tool} {changes : ChangeSet} {words : List String}
    (h : tool.dispatch changes = .run words) {program : String}
    (hc : tool.command.head? = some program) (hp : program ≠ filesPlaceholder) :
    words.head? = some program := by
  rcases files_of_dispatch h with ⟨_, rfl⟩ | ⟨_, path, more, _, _, rfl⟩
  · exact head?_render_of_ne hc hp _
  · exact head?_render_of_ne hc hp _

lemma head?_of_dispatch_of_files {tool : Tool} {changes : ChangeSet} {words : List String}
    (h : tool.dispatch changes = .run words) (hc : tool.command.head? = some filesPlaceholder)
    {source : String} (hs : tool.filesFrom = some source) :
    words ≠ [] ∧ words.head? = (changes.filesFor source).head? := by
  rcases files_of_dispatch h with ⟨hf, _⟩ | ⟨other, path, more, hf, hpaths, rfl⟩
  · cases hf.symm.trans hs
  · obtain rfl : other = source := Option.some.inj (hf.symm.trans hs)
    have hhead := head?_render_of_files hc path more
    rw [hpaths]
    exact ⟨List.ne_nil_of_mem (List.mem_of_mem_head? hhead), hhead⟩

lemma words_of_dispatch_alone {tool : Tool} {changes : ChangeSet} {words : List String}
    (h : tool.dispatch changes = .run words) (hf : tool.filesFrom = none) :
    words = tool.command.filter (· ≠ filesPlaceholder) := by
  rcases files_of_dispatch h with ⟨_, rfl⟩ | ⟨_, _, _, hs, _⟩
  · exact render_nil tool
  · cases hf.symm.trans hs

lemma words_eq_nil_iff {tool : Tool} {changes : ChangeSet} {words : List String}
    (hc : tool.command ≠ []) (h : tool.dispatch changes = .run words) :
    words = [] ↔ tool.filesFrom = none ∧ ∀ word ∈ tool.command, word = filesPlaceholder := by
  rcases hf : tool.filesFrom with _ | source
  · rw [words_of_dispatch_alone h hf, List.filter_eq_nil_iff, and_iff_right rfl]
    simp
  · obtain ⟨program, arguments, hcommand⟩ := List.exists_cons_of_ne_nil hc
    have hprogram : tool.command.head? = some program := by rw [hcommand, List.head?_cons]
    have hwords : words ≠ [] := by
      by_cases hp : program = filesPlaceholder
      · exact (head?_of_dispatch_of_files h (hp ▸ hprogram) hf).1
      · exact List.ne_nil_of_mem (List.mem_of_mem_head? (head?_of_dispatch_of_ne h hprogram hp))
    simp [hwords]

end Tool

namespace Workplace

lemma startProgram_emptyCommand_iff {p : Workplace} {tool : Tool} {w : World σ}
    {words : List String} :
    (∃ v, p.startProgram tool w words = (.error (.config (.emptyCommand tool.name)), v)) ↔
      words = [] := by
  constructor
  · rintro ⟨v, hs⟩
    rcases startProgram_error hs with ⟨rfl, _⟩ | ⟨cause, _, _, he, _⟩ | ⟨_, _, _, cause, _, _, _, he, _⟩
    · rfl
    · cases he
    · cases he
  · rintro rfl
    exact ⟨w, rfl⟩

lemma calls_of_startProgram {p : Workplace} {tool : Tool} {w v : World σ} {words : List String}
    {behaviour : World.Behaviour} (h : p.startProgram tool w words = (.ok behaviour, v)) :
    v.calls = w.calls ++ [words] := by
  obtain ⟨program, arguments, files, rfl, _, _, rfl⟩ := startProgram_ok h
  simp [World.calls, World.history, World.note]

end Workplace

theorem Tool.program_of_registered {table longer : ToolTable} {tool : Tool}
    (h : table.register tool = .ok longer) {p : Workplace} {words : List String}
    (hrun : tool.dispatch p.changes = .run words) (w : World σ) :
    (tool.command.head? ≠ some filesPlaceholder →
        words ≠ [] ∧ words.head? = tool.command.head?) ∧
      (tool.command.head? = some filesPlaceholder →
        (∀ source ∈ tool.filesFrom,
          words ≠ [] ∧ words.head? = (p.changes.filesFor source).head?) ∧
        (tool.filesFrom = none → words = tool.command.filter (· ≠ filesPlaceholder))) ∧
      (words = [] ↔ tool.filesFrom = none ∧ ∀ word ∈ tool.command, word = filesPlaceholder) ∧
      ((∃ v, p.startProgram tool w words = (.error (.config (.emptyCommand tool.name)), v)) ↔
        words = []) ∧
      ∀ behaviour v, p.startProgram tool w words = (.ok behaviour, v) →
        v.calls = w.calls ++ [words] := by
  obtain ⟨hc, _⟩ := ToolTable.register_eq_ok_iff.mp h
  obtain ⟨program, arguments, hcommand⟩ := List.exists_cons_of_ne_nil hc
  have hprogram : tool.command.head? = some program := by rw [hcommand, List.head?_cons]
  refine ⟨fun hne => ?_, fun hplace => ⟨?_, words_of_dispatch_alone hrun⟩, words_eq_nil_iff hc hrun,
    Workplace.startProgram_emptyCommand_iff, fun _ _ => Workplace.calls_of_startProgram⟩
  · have hp : program ≠ filesPlaceholder := fun he => hne (he ▸ hprogram)
    have hhead := head?_of_dispatch_of_ne hrun hprogram hp
    exact ⟨List.ne_nil_of_mem (List.mem_of_mem_head? hhead), hhead.trans hprogram.symm⟩
  · exact fun source hs => head?_of_dispatch_of_files hrun hplace hs

def sweepTool : Tool := (Tool.ofCommand "sweep" [Tool.filesPlaceholder]).withFilesFrom "python"

def idleTool : Tool := Tool.ofCommand "idle" [Tool.filesPlaceholder]

def setupChanges : ChangeSet :=
  ⟨[⟨"setup.py", .modified⟩], .ofList [("python", ⟨"python", true, ["setup.py"]⟩)]⟩

def setupWorld : World Unit :=
  .fresh fun call => if call.name = "setup.py" then some ⟨[], .exit 0, 0⟩ else none

def setupPlace : Workplace := ⟨⟨"."⟩, ".", setupChanges⟩

/-- Both tools are accepted; one starts the changed file as its program, and the other is found to
have no command when it is to start. -/
theorem changed_file_is_run :
    ToolTable.ofList [sweepTool, idleTool] = .ok ⟨[sweepTool, idleTool]⟩ ∧
      ChangeSet.classify [⟨"setup.py", .modified⟩] [⟨"python", ["**/*.py"], true⟩] =
        .ok setupChanges ∧
      sweepTool.dispatch setupChanges = .run ["setup.py"] ∧
      sweepTool.command.head? ≠ some "setup.py" ∧
      (setupPlace.launch sweepTool setupWorld).2.calls = [["setup.py"]] ∧
      idleTool.dispatch setupChanges = .run [] ∧
      (setupPlace.startProgram idleTool setupWorld []).1 =
        .error (.config (.emptyCommand "idle")) := by
  refine ⟨rfl, ?_, ?_, by decide, ?_, rfl, rfl⟩
  · decide +kernel
  · decide +kernel
  · decide +kernel

theorem program_of_registered_sweep :
    ToolTable.empty.register sweepTool = .ok ⟨[sweepTool]⟩ ∧
      ∃ words, sweepTool.dispatch setupPlace.changes = .run words ∧ words.head? = some "setup.py" := by
  have hregister : ToolTable.empty.register sweepTool = .ok ⟨[sweepTool]⟩ := rfl
  have hrun : sweepTool.dispatch setupPlace.changes = .run ["setup.py"] := by decide +kernel
  obtain ⟨_, hplace, _⟩ := Tool.program_of_registered hregister hrun setupWorld
  obtain ⟨_, hhead⟩ := (hplace rfl).1 "python" rfl
  exact ⟨hregister, _, hrun, hhead.trans (by decide +kernel)⟩

end Premerge
