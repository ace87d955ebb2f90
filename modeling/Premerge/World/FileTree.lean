import Premerge.Text.Utf8
import Premerge.World.Path

/-! Directories and files by their locations, which are the names from the root down. A path is
resolved part by part as an operating system does it, and each operation fails with the error that
one reports. -/

namespace Premerge.World

open Premerge.Text.Utf8 (Octets)

inductive SystemError where
  | notFound
  | permissionDenied
  | alreadyExists
  | notADirectory
  | isADirectory
  | nameTooLong
  | nulInPath
  | nulInArgument
  | notText
  | other (text : String)
  deriving DecidableEq, Repr, Inhabited

def SystemError.message : SystemError → String
  | .notFound => "No such file or directory (os error 2)"
  | .permissionDenied => "Permission denied (os error 13)"
  | .alreadyExists => "File exists (os error 17)"
  | .notADirectory => "Not a directory (os error 20)"
  | .isADirectory => "Is a directory (os error 21)"
  | .nameTooLong => "File name too long (os error 36)"
  | .nulInPath => "file name contained an unexpected NUL byte"
  | .nulInArgument => "nul byte found in provided data"
  | .notText => "stream did not contain valid UTF-8"
  | .other text => text

abbrev Location := List String

inductive Node where
  | directory
  | file (content : Octets)
  deriving DecidableEq, Repr

structure FileTree where
  /-- What stands where; the root is always a directory. -/
  nodes : List (Location × Node)
  current : Location
  deriving Repr

namespace FileTree

def get? (tree : FileTree) : Location → Option Node
  | [] => some .directory
  | location => tree.nodes.lookup location

def put (tree : FileTree) (location : Location) (node : Node) : FileTree :=
  { tree with nodes := (location, node) :: tree.nodes.filter (·.1 ≠ location) }

structure Spot where
  location : Location
  node : Option Node
  /-- The path ends in a slash, so only a directory fits. -/
  asDirectory : Bool
  deriving Repr

def longestName : Nat := 255

def pathLimit : Nat := 4096

/-- Goes on from a location by the parts of a path. Every part but the last has to lead to a
directory. -/
def walk (tree : FileTree) (location : Location) :
    List String → Except SystemError (Location × Option Node)
  | [] => .ok (location, tree.get? location)
  | part :: rest =>
    match tree.get? location with
    | none => .error .notFound
    | some (.file _) => .error .notADirectory
    | some .directory =>
      if part = "" ∨ part = "." then tree.walk location rest
      else if part = ".." then tree.walk location.dropLast rest
      else if part.utf8ByteSize > longestName then .error .nameTooLong
      else tree.walk (location ++ [part]) rest

def dropEmptyEnd (parts : List String) : List String :=
  (parts.reverse.dropWhile (· == "")).reverse

def locate (tree : FileTree) (path : Path) : Except SystemError Spot :=
  if path.toList.contains (Char.ofNat 0) then .error .nulInPath
  else if path.isEmpty then .error .notFound
  else if path.utf8ByteSize ≥ pathLimit then .error .nameTooLong
  else
    -- The slash at the end asks for a directory, but leads nowhere by itself.
    let parts := path.parts
    let kept := dropEmptyEnd parts
    let asDirectory := kept.length < parts.length
    match tree.walk (if path.isAbsolute then [] else tree.current) kept with
    | .error e => .error e
    | .ok (location, some (.file content)) =>
      if asDirectory then .error .notADirectory
      else .ok ⟨location, some (.file content), asDirectory⟩
    | .ok (location, node) => .ok ⟨location, node, asDirectory⟩

def pathExists (tree : FileTree) (path : Path) : Bool :=
  match tree.locate path with
  | .ok ⟨_, some _, _⟩ => true
  | _ => false

def isDirectory (tree : FileTree) (path : Path) : Bool :=
  match tree.locate path with
  | .ok ⟨_, some .directory, _⟩ => true
  | _ => false

def isFile (tree : FileTree) (path : Path) : Bool :=
  match tree.locate path with
  | .ok ⟨_, some (.file _), _⟩ => true
  | _ => false

def read (tree : FileTree) (path : Path) : Except SystemError Octets :=
  match tree.locate path with
  | .error e => .error e
  | .ok ⟨_, none, _⟩ => .error .notFound
  | .ok ⟨_, some .directory, _⟩ => .error .isADirectory
  | .ok ⟨_, some (.file content), _⟩ => .ok content

def readText (tree : FileTree) (path : Path) : Except SystemError String :=
  match tree.read path with
  | .error e => .error e
  | .ok content =>
    match Text.Utf8.readStrict content with
    | some text => .ok text
    | none => .error .notText

def update (tree : FileTree) (path : Path) (change : Octets → Octets) :
    Except SystemError FileTree :=
  match tree.locate path with
  | .error e => .error e
  | .ok ⟨_, some .directory, _⟩ => .error .isADirectory
  | .ok ⟨location, some (.file content), _⟩ => .ok (tree.put location (.file (change content)))
  | .ok ⟨location, none, asDirectory⟩ =>
    if asDirectory then .error .isADirectory
    else .ok (tree.put location (.file (change [])))

def write (tree : FileTree) (path : Path) (content : Octets) : Except SystemError FileTree :=
  tree.update path fun _ => content

def append (tree : FileTree) (path : Path) (content : Octets) : Except SystemError FileTree :=
  tree.update path (· ++ content)

def writeNew (tree : FileTree) (path : Path) (content : Octets) : Except SystemError FileTree :=
  match tree.locate path with
  | .error e => .error e
  | .ok ⟨_, some _, _⟩ => .error .alreadyExists
  | .ok ⟨location, none, asDirectory⟩ =>
    if asDirectory then .error .isADirectory
    else .ok (tree.put location (.file content))

def children (tree : FileTree) (location : Location) : List String :=
  tree.nodes.filterMap fun (other, _) =>
    if other ≠ [] ∧ other.dropLast = location then other.getLast? else none

def list (tree : FileTree) (path : Path) : Except SystemError (List String) :=
  match tree.locate path with
  | .error e => .error e
  | .ok ⟨_, none, _⟩ => .error .notFound
  | .ok ⟨_, some (.file _), _⟩ => .error .notADirectory
  | .ok ⟨location, some .directory, _⟩ => .ok (tree.children location)

def makeDirectory (tree : FileTree) (path : Path) : Except SystemError FileTree :=
  match tree.locate path with
  | .error e => .error e
  | .ok ⟨_, some _, _⟩ => .error .alreadyExists
  | .ok ⟨location, none, _⟩ => .ok (tree.put location .directory)

/-- Makes the first of the given directories, and before it those behind it in the list that are
missing. What has been made stays, even if a later one cannot be made. -/
def makeChain (tree : FileTree) : List Path → Except SystemError Unit × FileTree
  | [] => (.error (.other "failed to create whole tree"), tree)
  | path :: up =>
    if path.isEmpty then (.ok (), tree)
    else match tree.makeDirectory path with
      | .ok made => (.ok (), made)
      | .error .notFound =>
        match tree.makeChain up with
        | (.error e, tree) => (.error e, tree)
        | (.ok (), tree) =>
          match tree.makeDirectory path with
          | .ok made => (.ok (), made)
          -- A directory that is there already is as good as a new one.
          | .error e => (if tree.isDirectory path then .ok () else .error e, tree)
      | .error e => (if tree.isDirectory path then .ok () else .error e, tree)

def makeDirectories (tree : FileTree) (path : Path) : Except SystemError FileTree :=
  match tree.makeChain path.ancestors with
  | (.ok (), made) => .ok made
  | (.error e, _) => .error e

def below (tree : FileTree) : List (Location × Node) :=
  tree.nodes.filterMap fun (location, node) =>
    if tree.current.isPrefixOf location ∧ location ≠ tree.current then
      some (location.drop tree.current.length, node)
    else none

def fresh : FileTree :=
  ⟨[(["work"], .directory)], ["work"]⟩

end FileTree

end Premerge.World
