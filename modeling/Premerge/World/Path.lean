import Premerge.Text.Line

namespace Premerge.World

abbrev Path := String

namespace Path

def isAbsolute (path : Path) : Bool :=
  path.toList.head? == some '/'

def parts (path : Path) : List String :=
  (Text.Line.pieces '/' path.toList).map String.ofList

/-- The path of a name in a directory. An absolute name stands for itself, and no second slash
follows one at the end of the directory. -/
def join (directory : Path) (name : String) : Path :=
  if isAbsolute name || directory.isEmpty then name
  else if directory.toList.getLast? == some '/' then directory ++ name
  else directory ++ "/" ++ name

/-- The parts that name something; a dot counts only at the start. -/
def steps (path : Path) : List String :=
  match parts path with
  | [] => []
  | first :: rest =>
    let named := rest.filter fun part => part ≠ "" && part ≠ "."
    if first = "" then named else first :: named

def ancestors (path : Path) : List Path :=
  let start := if isAbsolute path then "/" else ""
  let climb := (steps path).foldl (fun up part => join (up.headD "") part :: up) [start]
  match climb with
  | _ :: up => if path.isEmpty then [""] else path :: up
  | [] => [path]

end Path

end Premerge.World
