import RecordGuard.CommandLine.Execute

/-!
# The program

What `execute` leaves to do: the environment and the files are read beforehand, and what comes out
is printed.
-/

namespace RecordGuard

/-- The fault that a system error means. -/
def ReadFault.ofSystem (e : IO.Error) : ReadFault :=
  match e with
  | .noFileOrDirectory .. => .notFound
  | .inappropriateType _ 21 _ => .isDirectory
  | .inappropriateType .. => .notDirectory
  | .invalidArgument _ _ "name too long" => .nameTooLong
  | e => .other (toString e)

/-- What stands behind a path. -/
def readPath (path : String) : IO (Except ReadFault ByteArray) := do
  match ← (IO.FS.readBinFile path).toBaseIO with
  | .ok bytes => return .ok bytes
  | .error e => return .error (.ofSystem e)

/-- The variables of the environment that matter. -/
def readEnvironment : IO Environment := do
  let mut env : Environment := []
  for var in [Settings.enabledVar, Settings.redactVar] do
    if let some s ← IO.getEnv var then
      env := env.insert var s.toUTF8
  return env

/-- A reader of the files that a command needs. -/
def readFiles (command : Command) : IO Reader := do
  let mut contents : Fields (Except ReadFault ByteArray) := []
  for path in command.paths do
    contents := contents.insert path (← readPath path)
  return fun path => (contents.get? path).getD (.error .notFound)

end RecordGuard

open RecordGuard in
def main (args : List String) : IO UInt32 := do
  let reader ← match Arguments.parse args with
    | .run invocation => readFiles invocation.command
    | _ => pure fun _ => .error .notFound
  let execution := execute args (← readEnvironment) reader
  IO.print execution.stdout
  match execution.log with
  | some events => for e in events do IO.eprintln e.line
  | none => IO.eprint usageText
  return execution.code.toUInt32
