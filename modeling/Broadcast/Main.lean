import Broadcast.CommandLine

/-!
# The program

What the program asks for is fetched, and what it is to do is done: texts are printed when their
time has come, and the seed is written.
-/

open Broadcast Broadcast.CommandLine

/-- What is at a path. -/
def entryAt (path : String) : IO (Option Entry) := do
  try
    return some (.file (← IO.FS.readBinFile path))
  catch
    | .noFileOrDirectory .. => return none
    | .inappropriateType _ code _ => return if code = 20 then none else some .directory
    | _ => return some .directory

/-- The entries at some paths. -/
def entriesAt (paths : List String) : IO FileView := do
  let entries ← paths.mapM fun path => return (path, ← entryAt path)
  return fun path => (entries.lookup path).join

/-- The variables of some names. -/
def variablesOf (names : List String) : IO Environment := do
  let found ← names.mapM fun name => return (name, ← IO.getEnv name)
  return fun name => (found.lookup name).join

/-- The names of all variables that may play a part. -/
def variableNames (files : FileView) : List String :=
  let mentioned := match files EnvironmentFile.path with
    | some (.file content) => EnvironmentFile.mentioned content
    | _ => []
  Config.overrideNames ++ OptionName.all.filterMap OptionName.envName? ++ colourNames ++ mentioned

/-- The fault that kept something from being written. -/
def pathFault : IO.Error → PathFault
  | .noFileOrDirectory .. => .missing
  | .inappropriateType _ code details =>
    if code = 20 then .notDirectory else if code = 21 then .isDirectory else .other details
  | .invalidArgument _ code details => if code = 36 then .tooLong else .other details
  | .resourceExhausted _ code details => if code = 28 then .full else .other details
  | error => .other error.toString

/-- What is printed comes at its time, counted from the beginning. -/
def printAll (out : IO.FS.Stream) (elapsed : Nat) : List Printed → IO Unit
  | [] => pure ()
  | p :: rest => do
    IO.sleep (UInt32.ofNat (p.millis - elapsed))
    out.putStr p.text
    out.flush
    printAll out p.millis rest

/-- The seed is written, if there is one. -/
def writeSeed : Option (String × String) → IO (Except PathFault Unit)
  | none => return .ok ()
  | some (path, content) => do
    try
      IO.FS.writeFile path content
      return .ok ()
    catch error =>
      return .error (pathFault error)

def main (words : List String) : IO UInt32 := do
  let start ← entriesAt [EnvironmentFile.path]
  let env ← variablesOf (variableNames start)
  let known ← entriesAt (paths start env words)
  let files ← entriesAt (paths known env words)
  let chance ← IO.rand 0 (2 ^ 31 - 1)
  let course := run files env words (UInt64.ofNat chance)
  printAll (← IO.getStdout) 0 (course.result (.ok ())).printed
  let result := course.result (← writeSeed course.seed?)
  (← IO.getStderr).putStr result.errors
  return result.exitCode
