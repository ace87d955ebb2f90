import Premerge.Tool.Table

namespace Premerge

/-- What is done with a table. If it fails, the table stays as it was left. -/
abbrev Registration := ExceptT Failure (StateM ToolTable)

namespace Registration

def perform {α : Type} (r : Registration α) (table : ToolTable) : Except Failure α × ToolTable :=
  r.run.run table

def register (tool : Tool) : Registration Unit := do
  if tool.command.isEmpty then throw (.config (.emptyCommand tool.name))
  if ((← get).get? tool.name).isSome then throw (.config (.duplicateTool tool.name))
  if (← get).reportNames.contains tool.reportName then
    throw (.config (.duplicateReport tool.reportName))
  modify fun table => ⟨table.tools ++ [tool]⟩

theorem perform_register (tool : Tool) (table : ToolTable) :
    (register tool).perform table = match table.register tool with
      | .ok longer => (.ok (), longer)
      | .error e => (.error e, table) := by
  unfold register ToolTable.register
  by_cases hc : tool.command.isEmpty
  · rw [if_pos hc, if_pos hc]
    rfl
  rw [if_neg hc, if_neg hc]
  change perform (if (table.get? tool.name).isSome then _ else _) table = _
  by_cases hn : (table.get? tool.name).isSome
  · rw [if_pos hn, if_pos hn]
    rfl
  rw [if_neg hn, if_neg hn]
  change perform (if table.reportNames.contains tool.reportName then _ else _) table = _
  by_cases hr : table.reportNames.contains tool.reportName
  · rw [if_pos hr, if_pos hr]
    rfl
  · rw [if_neg hr, if_neg hr]
    rfl

def registerEach : List Tool → ToolTable → List (Except Failure Unit) × ToolTable
  | [], table => ([], table)
  | tool :: rest, table =>
    let (result, after) := (register tool).perform table
    let (results, last) := registerEach rest after
    (result :: results, last)

theorem registerEach_cons (tool : Tool) (rest : List Tool) (table : ToolTable) :
    registerEach (tool :: rest) table =
      (((register tool).perform table).1 ::
          (registerEach rest ((register tool).perform table).2).1,
        (registerEach rest ((register tool).perform table).2).2) := rfl

end Registration

end Premerge
