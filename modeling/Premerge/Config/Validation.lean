import Premerge.Config.Basic
import Premerge.Report.Sections

namespace Premerge

def Tool.fragmentNames (tool : Tool) : List String :=
  match tool.kind with
  | .testRunner => [tool.reportName, Report.Fragment.coverageName]
  | .generic | .migrationCheck => [tool.reportName]

theorem Tool.mem_fragmentNames {tool : Tool} {name : String} : name ∈ tool.fragmentNames ↔
    name = tool.reportName ∨ tool.kind = .testRunner ∧ name = Report.Fragment.coverageName := by
  unfold fragmentNames
  cases hk : tool.kind <;> simp

def Tool.references (tool : Tool) : List String :=
  tool.gate.toList ++ tool.filesFrom.toList

namespace Config

def declares (c : Config) (name : String) : Bool :=
  c.predicates.any (·.name == name)

def checkReferences (c : Config) : List Tool → Except Failure Unit
  | [] => .ok ()
  | tool :: rest =>
    match tool.references.find? (!c.declares ·) with
    | some name => .error (.config (.unknownPredicate tool.name name))
    | none => c.checkReferences rest

def checkOrder (order : List String) : List Tool → Except Failure Unit
  | [] => .ok ()
  | tool :: rest =>
    match tool.fragmentNames.find? (!order.contains ·) with
    | some fragment => .error (.config (.noPlace fragment tool.name))
    | none => checkOrder order rest

def toolTable (c : Config) : Except Failure ToolTable :=
  ToolTable.ofList c.tools

def validate (c : Config) : Except Failure Unit := do
  c.checkReferences c.tools
  match c.ownSummaryOrder with
  | some order => checkOrder order c.tools
  | none => .ok ()
  if c.jobTimeoutSecs = 0 then .error (.config .noTime)
  let _ ← c.toolTable
  .ok ()

def firstOccurrences (names : List String) : List String :=
  names.foldl (fun order name => if order.contains name then order else order ++ [name]) []

def summaryOrder (c : Config) : List String :=
  match c.ownSummaryOrder with
  | some order => order
  | none => firstOccurrences (c.tools.flatMap Tool.fragmentNames)

end Config

end Premerge
