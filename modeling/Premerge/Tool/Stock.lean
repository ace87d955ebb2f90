import Premerge.Tool.Dispatch
import Premerge.Tool.Table

namespace Premerge

open Premerge.Data

inductive StockTool where
  | pytest
  | migrations
  | pylint
  | black
  | isort
  | bandit
  deriving DecidableEq, Repr

namespace StockTool

def all : List StockTool := [pytest, migrations, pylint, black, isort, bandit]

def name : StockTool → String
  | .pytest => "pytest"
  | .migrations => "migrations"
  | .pylint => "pylint"
  | .black => "black"
  | .isort => "isort"
  | .bandit => "bandit"

def pythonPredicate : String := "python"

def corePredicate : String := "core"

def inContainer (command : List String) : List String :=
  ["docker", "compose", "run", "--rm", "-T", "web_server"] ++ command

def forFiles (name : String) (command : List String) (source : String) : Tool :=
  ((Tool.ofCommand name (inContainer (command ++ [Tool.filesPlaceholder]))).gatedOn
    pythonPredicate).withFilesFrom source

def tool (t : StockTool) : Tool :=
  match t with
  | .pytest =>
    (((Tool.ofCommand t.name (inContainer ["pytest", "-v", "--cov", "--cov-report", "term"])).fatal
      ).withKind .testRunner).withTimeout 1800
  | .migrations =>
    (((Tool.ofCommand t.name (inContainer ["alembic", "upgrade", "head"])).fatal
      ).withKind .migrationCheck).withTimeout 300
  | .pylint => (forFiles t.name ["pylint"] pythonPredicate).withTimeout 600
  | .black => (forFiles t.name ["black", "--check", "--diff"] pythonPredicate).withTimeout 300
  | .isort => (forFiles t.name ["isort", "--check", "--diff"] pythonPredicate).withTimeout 300
  | .bandit => (forFiles t.name ["bandit", "-c", "pyproject.toml"] corePredicate).withTimeout 300

def decoder : Decoder StockTool :=
  Decoder.member (all.map fun t => (t.name, t))

def toValue (t : StockTool) : Value := .text t.name

end StockTool

def ToolTable.stock : ToolTable := ⟨StockTool.all.map StockTool.tool⟩

end Premerge
