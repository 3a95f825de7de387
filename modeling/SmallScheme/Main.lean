import SmallScheme.CommandLine.Program

/-!
# The program

Reads the variables, the files and the standard input, runs the program on them, and
writes what it answers.
-/

namespace SmallScheme

/-- The bytes of the file that a path leads to. -/
def openPath (path : String) : IO (Except CommandLine.OpenError ByteArray) := do
  try
    return .ok (← IO.FS.readBinFile path)
  catch
    | .noFileOrDirectory .. => return .error .missing
    | .inappropriateType _ 20 _ => return .error .notDirectory
    | .inappropriateType .. => return .error .isDirectory
    | .invalidArgument _ 36 _ => return .error .tooLong
    | e => throw e

/-- The files at the given paths. -/
def openPaths (paths : List String) : IO CommandLine.FileSystem := do
  let opened ← paths.mapM fun path => return (path, ← openPath path)
  return fun path => (opened.lookup path).getD (.error .missing)

/-- All of a stream. -/
partial def readStream (stream : IO.FS.Stream) (text : String) : IO String := do
  let line ← stream.getLine
  if line.isEmpty then return text else readStream stream (text ++ line)

/-- The variables of the environment. -/
def readVariables : IO Variables := do
  return {
    prompt := ← IO.getEnv "SANGUINIUS_PROMPT"
    recursionLimit := ← IO.getEnv "SANGUINIUS_RECURSION_LIMIT"
    logLevel := ← IO.getEnv "SANGUINIUS_LOG_LEVEL" }

end SmallScheme

open SmallScheme in
/-- Runs the program on its command line. -/
def main (args : List String) : IO UInt32 := do
  let (files, input) ← match CommandLine.parse args with
    | .run files true => do pure (files, ← readStream (← IO.getStdin) "")
    | .run files false => pure (files, "")
    | _ => pure ([], "")
  let outcome := CommandLine.run .standard (← readVariables) (← openPaths files) input args
  (← IO.getStdout).putStr outcome.stdout
  (← IO.getStderr).putStr outcome.stderr
  match outcome.exit with
  | .ok code => return code.toUInt32
  | .error _ => return 1
