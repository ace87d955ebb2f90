import Premerge.Proofs.Tool.Table
import Premerge.Tool.Registration
import Premerge.Tool.Stock

namespace Premerge

namespace ToolTable

/-- Why a table refuses a tool. What is wrong with the command counts before the names, and the name of the
tool before that of its report. -/
inductive Refuses (table : ToolTable) (tool : Tool) : ConfigFault → Prop
  | command (hc : tool.command = []) : Refuses table tool (.emptyCommand tool.name)
  | name (hc : tool.command ≠ []) (hn : tool.name ∈ table.names) :
      Refuses table tool (.duplicateTool tool.name)
  | report (hc : tool.command ≠ []) (hn : tool.name ∉ table.names)
      (hr : tool.reportName ∈ table.reportNames) :
      Refuses table tool (.duplicateReport tool.reportName)

lemma register_cases (table : ToolTable) (tool : Tool) :
    (tool.command ≠ [] ∧ tool.name ∉ table.names ∧ tool.reportName ∉ table.reportNames ∧
      table.register tool = .ok ⟨table.tools ++ [tool]⟩) ∨
    ∃ fault, table.Refuses tool fault ∧ table.register tool = .error (.config fault) := by
  by_cases hc : tool.command = []
  · exact .inr ⟨_, .command hc, by simp [register, hc]⟩
  by_cases hn : tool.name ∈ table.names
  · have hget : (table.get? tool.name).isSome = true := by
      rw [Option.isSome_iff_ne_none, ne_eq, get?_eq_none_iff, not_not]
      exact hn
    exact .inr ⟨_, .name hc hn, by simp [register, hc, hget]⟩
  have hget : table.get? tool.name = none := get?_eq_none_iff.mpr hn
  by_cases hr : tool.reportName ∈ table.reportNames
  · exact .inr ⟨_, .report hc hn hr, by simp [register, hc, hget, hr]⟩
  · exact .inl ⟨hc, hn, hr, register_eq_ok_iff.mpr ⟨hc, hn, hr, rfl⟩⟩

lemma sound_stock : stock.Sound :=
  ⟨by decide, by decide, by decide⟩

lemma Sound.get?_eq_some_iff {table : ToolTable} (h : table.Sound) {name : String} {tool : Tool} :
    table.get? name = some tool ↔ tool ∈ table.tools ∧ tool.name = name :=
  Data.find?_eq_some_iff_of_nodup h.names

end ToolTable

namespace Registration

lemma register_cases (tool : Tool) (table : ToolTable) :
    (tool.command ≠ [] ∧ tool.name ∉ table.names ∧ tool.reportName ∉ table.reportNames ∧
      (register tool).perform table = (.ok (), ⟨table.tools ++ [tool]⟩)) ∨
    ∃ fault, table.Refuses tool fault ∧
      (register tool).perform table = (.error (.config fault), table) := by
  rw [perform_register]
  rcases table.register_cases tool with ⟨hc, hn, hr, ho⟩ | ⟨fault, hf, he⟩
  · exact .inl ⟨hc, hn, hr, by rw [ho]⟩
  · exact .inr ⟨fault, hf, by rw [he]⟩

lemma sound_register {table : ToolTable} (h : table.Sound) (tool : Tool) :
    ((register tool).perform table).2.Sound := by
  rw [perform_register]
  rcases hr : table.register tool with e | longer
  · exact h
  · exact h.register hr

lemma registerEach_concat (calls : List Tool) (tool : Tool) (table : ToolTable) :
    registerEach (calls ++ [tool]) table =
      ((registerEach calls table).1 ++ [((register tool).perform (registerEach calls table).2).1],
        ((register tool).perform (registerEach calls table).2).2) := by
  induction calls generalizing table with
  | nil => rfl
  | cons first rest ih =>
    rw [List.cons_append, registerEach_cons, registerEach_cons, ih, List.cons_append]

def taken (calls : List Tool) (results : List (Except Failure Unit)) : List Tool :=
  ((calls.zip results).filter (·.2.isOk)).map Prod.fst

lemma length_registerEach (calls : List Tool) (table : ToolTable) :
    (registerEach calls table).1.length = calls.length := by
  induction calls generalizing table with
  | nil => rfl
  | cons tool rest ih => rw [registerEach_cons, List.length_cons, ih, List.length_cons]

lemma sound_registerEach {table : ToolTable} (h : table.Sound) (calls : List Tool) :
    (registerEach calls table).2.Sound := by
  induction calls generalizing table with
  | nil => exact h
  | cons tool rest ih =>
    rw [registerEach_cons]
    exact ih (sound_register h tool)

lemma tools_registerEach (calls : List Tool) (table : ToolTable) :
    (registerEach calls table).2.tools =
      table.tools ++ taken calls (registerEach calls table).1 := by
  induction calls generalizing table with
  | nil => exact (List.append_nil _).symm
  | cons tool rest ih =>
    rw [registerEach_cons, ih]
    rcases register_cases tool table with ⟨-, -, -, ho⟩ | ⟨fault, -, he⟩
    · rw [ho]
      simp [taken, Except.isOk, Except.toBool]
    · rw [he]
      simp [taken, Except.isOk, Except.toBool]

/-- A table of no tools or of the stock tools, after any calls. Whatever tool the next call is about, it is
taken if it has a command and new names; otherwise it is refused, and the table is as before the call. -/
theorem registerEach_from {start : ToolTable} (hs : start = .empty ∨ start = .stock)
    (calls : List Tool) :
    ∃ results table, registerEach calls start = (results, table) ∧
      results.length = calls.length ∧ table.tools = start.tools ++ taken calls results ∧
      (∀ tool ∈ table.tools, tool.command ≠ []) ∧ table.names.Nodup ∧ table.reportNames.Nodup ∧
      (∀ name tool, table.get? name = some tool ↔ tool ∈ table.tools ∧ tool.name = name) ∧
      (∀ name, table.get? name = none ↔ name ∉ table.names) ∧
      ∀ tool,
        (tool.command ≠ [] ∧ tool.name ∉ table.names ∧ tool.reportName ∉ table.reportNames ∧
          registerEach (calls ++ [tool]) start =
            (results ++ [.ok ()], ⟨table.tools ++ [tool]⟩)) ∨
        ∃ fault, table.Refuses tool fault ∧
          registerEach (calls ++ [tool]) start = (results ++ [.error (.config fault)], table) := by
  have hstart : start.Sound := by
    rcases hs with rfl | rfl
    · exact ToolTable.sound_empty
    · exact ToolTable.sound_stock
  have hsound := sound_registerEach hstart calls
  refine ⟨_, _, rfl, length_registerEach calls start, tools_registerEach calls start,
    hsound.commands, hsound.names, hsound.reports, fun _ _ => hsound.get?_eq_some_iff,
    fun _ => ToolTable.get?_eq_none_iff, fun tool => ?_⟩
  rw [registerEach_concat]
  rcases register_cases tool (registerEach calls start).2 with ⟨hc, hn, hr, ho⟩ | ⟨fault, hf, he⟩
  · exact .inl ⟨hc, hn, hr, by rw [ho]⟩
  · exact .inr ⟨fault, hf, by rw [he]⟩

def mixedCalls : List Tool :=
  [Tool.ofCommand "pytest" ["true"], Tool.ofCommand "lint" ["lint"], Tool.ofCommand "docs" [],
    (Tool.ofCommand "docs" ["docs"]).withReportName "page",
    (Tool.ofCommand "style" ["style"]).withReportName "lint"]

theorem registerEach_from_stock :
    ∃ table, registerEach mixedCalls .stock =
        ([.error (.config (.duplicateTool "pytest")), .ok (),
          .error (.config (.emptyCommand "docs")), .ok (),
          .error (.config (.duplicateReport "lint"))], table) ∧
      table.tools = ToolTable.stock.tools ++ [Tool.ofCommand "lint" ["lint"],
        (Tool.ofCommand "docs" ["docs"]).withReportName "page"] ∧
      table.names.Nodup ∧ table.reportNames.Nodup ∧
      table.get? "lint" = some (Tool.ofCommand "lint" ["lint"]) ∧ table.get? "style" = none := by
  have hresults : (registerEach mixedCalls .stock).1 =
      [.error (.config (.duplicateTool "pytest")), .ok (),
        .error (.config (.emptyCommand "docs")), .ok (),
        .error (.config (.duplicateReport "lint"))] := by
    decide +kernel
  obtain ⟨results, table, he, -, htools, -, hnames, hreports, hget, hnone, -⟩ :=
    registerEach_from (.inr rfl) mixedCalls
  rw [he] at hresults
  dsimp only at hresults
  subst hresults
  refine ⟨table, he, htools, hnames, hreports, (hget _ _).mpr ⟨?_, rfl⟩, (hnone _).mpr ?_⟩
  · rw [htools]
    decide
  · rw [ToolTable.names, htools]
    decide

end Registration

end Premerge
