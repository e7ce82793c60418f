import ConventionalCommit.Cli.Run

/-!
# ConventionalCommit — the program

The command line program. It looks up the files that its arguments name, reads
standard input if the message comes from there, and prints what the run shows.
-/

namespace ConventionalCommit.Cli

/-- Whether the system's code for an error, of either sign, says that a directory
is where a file should be. -/
def isDirectoryCode (code : UInt32) : Bool := code == 21 || code == 0 - 21

/-- Whether the system tells of a path that there is a regular file. -/
def isRegular (path : Text) : IO Bool := do
  try
    let found ← ((← IO.currentDir) / String.ofList path).metadata
    return found.type == .file
  catch _ => return false

/-- What is at a path. -/
def entryAt (path : Text) : IO Entry := do
  let regular ← isRegular path
  let closed (fault : ReadFault) : Entry := if regular then .unreadable fault else .hidden fault
  try
    let bytes ← IO.FS.readBinFile (String.ofList path)
    return if regular then .file bytes else .special bytes
  catch e =>
    match e with
    | .noFileOrDirectory .. => return .missing
    | .inappropriateType _ code _ =>
      return if isDirectoryCode code then .directory else .throughFile
    | .permissionDenied .. => return closed (.other "Permission denied (os error 13)".toList)
    | other => return closed (.other (toString other).toList)

/-- Looks up what some paths lead to. -/
def lookUp (paths : List Text) : IO Files := do
  let entries ← paths.mapM fun path => return (path, ← entryAt path)
  return fun path => (entries.lookup path).getD .missing

/-- The surroundings of a run with some arguments. The columns of a terminal cannot be
asked for from here, so the output is displayed as it is without one. -/
def worldOf (a : Args) : IO World := do
  let noColor ← IO.getEnv "NO_COLOR"
  let forceColor ← IO.getEnv "FORCE_COLOR"
  let files ← lookUp a.paths
  let stdin ←
    if (a.command.getD defaultCommand).file.isNone then (← IO.getStdin).readBinToEnd
    else pure ByteArray.empty
  let colours := coloured (noColor.map String.toList) (forceColor.map String.toList)
  return ⟨files, stdin, ⟨colours, none⟩⟩

/-- Prints what a run shows and returns its exit status. -/
def Outcome.print (o : Outcome) : IO UInt32 := do
  (← IO.getStdout).putStr (String.ofList o.stdout)
  (← IO.getStderr).putStr (String.ofList o.stderr)
  return o.exit.toUInt32

end ConventionalCommit.Cli

open ConventionalCommit.Cli in
/-- Runs the program. -/
def main (words : List String) : IO UInt32 := do
  match Args.parse (words.map String.toList) with
  | .ok a => (run (← worldOf a) a).print
  | .error s => s.outcome.print
