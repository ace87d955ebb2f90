import Premerge.CommandLine.Perform

/-! Reads the files that a command names, performs it, and writes back what it changed. No programs
are started: a command that needs one fails as it does where the program is missing. -/

namespace Premerge.CommandLine

open Premerge.Data Premerge.World

def environmentNames : List String :=
  LogFilter.variableName :: CommandName.all.flatMap fun name => name.rules.filterMap (·.fallback)

def readEnvironment : IO (NameMap String) := do
  let mut environment : NameMap String := .empty
  for name in environmentNames do
    if let some value ← IO.getEnv name then
      environment := environment.insert name value
  return environment

def readFiles (files : FileTree) (paths : List Path) : IO FileTree := do
  let mut files := files
  for path in paths do
    let content ← try some <$> IO.FS.readBinFile path catch _ => pure none
    if let some content := content then
      for directory in path.ancestors.tail.take 1 do
        if let .ok made := files.makeDirectories directory then files := made
      if let .ok written := files.write path content.toList then files := written
  return files

def writeFiles (before after : FileTree) : IO Unit := do
  for (names, node) in after.below.reverse do
    let path := "/".intercalate names
    match node with
    | .directory => IO.FS.createDirAll path
    | .file content =>
      if before.get? (before.current ++ names) ≠ some node then
        IO.FS.writeBinFile path (ByteArray.mk content.toArray)

def start (arguments : List String) : IO UInt32 := do
  let environment ← readEnvironment
  let output ← IO.getStdout
  let errors ← IO.getStderr
  match Invocation.ofWords environment arguments with
  | .error stop =>
    let exit := Exit.ofStop stop
    output.putStr exit.output
    errors.putStr exit.complaint
    return exit.status.toUInt32
  | .ok invocation =>
    let files ← readFiles .fresh invocation.command.configPaths
    let files ← readFiles files (invocation.command.inputPaths files)
    let first ← IO.rand 0 4611686018427387904
    let world : World Unit := {
      files
      programs := fun _ => none
      environment
      now := 0
      epoch := ⟨0, 0⟩
      draws := fun n => first + n
      drawn := 0
      givenUpAfter := 0
      checksAtOnce := 1
      past := []
      services := () }
    let (exit, after) := invocation.execute world
    let filter := LogFilter.inForce (environment.find? LogFilter.variableName) invocation.verbose
    for event in after.events.filter filter.admits do
      errors.putStr (logLine invocation.logAsData event)
    writeFiles files after.files
    output.putStr exit.output
    errors.putStr exit.complaint
    return exit.status.toUInt32

end Premerge.CommandLine

def main (arguments : List String) : IO UInt32 :=
  Premerge.CommandLine.start arguments
