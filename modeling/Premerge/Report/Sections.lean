import Premerge.Report.Escape
import Premerge.Report.Fragment
import Premerge.Text.Line
import Premerge.Tool.Basic

/-! The output of a test runner has a header line, a narrative, and often a coverage summary, which
goes from a marker to the line with the totals. The other kinds of report have one section. -/

namespace Premerge.Report

structure Sections where
  narrative : List Char
  coverage : Option (List Char)
  deriving DecidableEq, Repr

namespace Sections

def marker : List Char := "---------- coverage:".toList

def terminator : List Char := "TOTAL".toList

def isMarker (line : List Char) : Bool := marker.isPrefixOf line

def isTerminator (line : List Char) : Bool := terminator.isPrefixOf line

def coverageLines : List (List Char) → List (List Char)
  | [] => []
  | line :: rest => if isTerminator line then [line] else line :: coverageLines rest

/-- The sections of an output: the first line is a header and is dropped. -/
def ofOutput (output : List Char) : Sections :=
  let lines := (Text.Line.inclusive output).tail
  -- What stands behind the first coverage summary belongs to neither section.
  match lines.dropWhile (!isMarker ·) with
  | [] => ⟨lines.flatten, none⟩
  | line :: rest =>
    ⟨(lines.takeWhile (!isMarker ·)).flatten, some (line ++ (coverageLines rest).flatten)⟩

end Sections

namespace Fragment

def coverageName : String := "coverage"

def ofOutput (name : String) (kind : ToolKind) (raw : String) : List Fragment :=
  let plain := Escape.strip raw
  match kind with
  | .testRunner =>
    let sections := Sections.ofOutput plain.toList
    let narrative := (ofText? name (String.ofList sections.narrative)).toList
    match sections.coverage with
    | some coverage => narrative ++ (ofText? coverageName (String.ofList coverage)).toList
    | none => narrative
  | .generic | .migrationCheck => (ofText? name plain).toList

end Fragment

end Premerge.Report
