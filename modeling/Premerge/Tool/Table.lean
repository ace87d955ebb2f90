import Premerge.Failure
import Premerge.Tool.Basic

namespace Premerge

structure ToolTable where
  tools : List Tool
  deriving DecidableEq, Repr

namespace ToolTable

def empty : ToolTable := ⟨[]⟩

def get? (table : ToolTable) (name : String) : Option Tool :=
  table.tools.find? (·.name == name)

def names (table : ToolTable) : List String :=
  table.tools.map Tool.name

def reportNames (table : ToolTable) : List String :=
  table.tools.map Tool.reportName

def register (table : ToolTable) (tool : Tool) : Except Failure ToolTable :=
  if tool.command.isEmpty then .error (.config (.emptyCommand tool.name))
  else if (table.get? tool.name).isSome then .error (.config (.duplicateTool tool.name))
  else if table.reportNames.contains tool.reportName then
    .error (.config (.duplicateReport tool.reportName))
  else .ok ⟨table.tools ++ [tool]⟩

def registerAll (table : ToolTable) : List Tool → Except Failure ToolTable
  | [] => .ok table
  | tool :: rest =>
    match table.register tool with
    | .error e => .error e
    | .ok table => table.registerAll rest

theorem tools_of_registerAll {table after : ToolTable} {tools : List Tool}
    (h : table.registerAll tools = .ok after) : after.tools = table.tools ++ tools := by
  induction tools generalizing table with
  | nil =>
    cases h
    exact (List.append_nil _).symm
  | cons tool rest ih =>
    rw [registerAll] at h
    rcases hr : table.register tool with e | longer <;> rw [hr] at h
    · cases h
    · have hl : longer.tools = table.tools ++ [tool] := by
        unfold register at hr
        split at hr
        · cases hr
        split at hr
        · cases hr
        split at hr
        · cases hr
        cases hr
        rfl
      rw [ih h, hl, List.append_assoc, List.singleton_append]

def ofList (tools : List Tool) : Except Failure ToolTable :=
  empty.registerAll tools

theorem tools_of_ofList {tools : List Tool} {table : ToolTable} (h : ofList tools = .ok table) :
    table.tools = tools :=
  tools_of_registerAll h

end ToolTable

end Premerge
