import EventSieve.CommandLine.Execution

/-!
# The program

Reads the files that the command line names, runs the command, and writes its
output or the message of its failure. All decisions are made by
`CommandLine.run`; only files, the environment and the streams are touched here.

Left out are logs below warnings and their set-up, the texts for help, for the version and
for wrong usage, and the wording of errors of the operating system and of documents that are
no JSON: such an error is known by its kind alone. None of this decides what is read,
compiled or decoded.
-/

namespace EventSieve.CommandLine

/-- The content of a file, when it can be read. -/
def fileContent (path : String) : IO (Option ByteArray) := do
  try
    return some (← IO.FS.readBinFile path)
  catch _ =>
    return none

/-- The files of a list of paths, as they are now. -/
def readFiles (paths : List String) : IO Files := do
  let contents ← paths.mapM fun path => do return (path, ← fileContent path)
  return fun path => ((contents.find? fun entry => entry.1 = path).map (·.2)).join

end EventSieve.CommandLine

open EventSieve.CommandLine

/-- Runs one command line. -/
def main (arguments : List String) : IO UInt32 := do
  let environment ← IO.getEnv "TQ_BACKEND"
  let paths := match Invocation.ofArguments? environment arguments with
    | some invocation => invocation.command.paths
    | none => []
  match run environment (← readFiles paths) arguments with
  | .ok output =>
    IO.print output
    return 0
  | .error failure =>
    IO.eprintln ("\n" ++ failure.message ++ "\n")
    return failure.exitCode.toUInt32
