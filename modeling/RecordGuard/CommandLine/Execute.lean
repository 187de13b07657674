import RecordGuard.CommandLine.Arguments
import RecordGuard.CommandLine.Check
import RecordGuard.CommandLine.Log

/-!
# Executing a command

The whole program as a function of its arguments, its environment and the files it can read. The
exit code is 0 if every document passed, 1 if one was rejected, and 2 if the program could not do
what it was asked: a setting of the environment that is no truth value, a schema that cannot be
loaded or built, a document that cannot be loaded, or arguments that make no sense.
-/

namespace RecordGuard

structure Execution where
  code : Nat
  stdout : String
  /-- The events that show, oldest first; `none` stands for a notice on how to use the program. -/
  log : Option (List Event)

inductive CommandFault where
  | schema (fault : SchemaFault)
  /-- The guard of the schema at a path cannot be built. -/
  | guard (path : String) (fault : SpecFault)
  | document (fault : DocumentFault)

def CommandFault.message : CommandFault → String
  | schema fault => fault.report
  | guard path fault => "cannot build guard from " ++ path ++ ": " ++ fault.message
  | document fault => fault.message

/-- The lines on standard output and how the command ended: with an exit code or a fault. -/
structure CommandResult where
  lines : List String
  code : Except CommandFault Nat

def runCheck (r : Reader) (schema : String) (documents : List String) (redact quiet : Bool) :
    Run CommandResult :=
  match SchemaFile.load r schema with
  | .error fault => return ⟨[], .error (.schema fault)⟩
  | .ok file =>
    match file.builder with
    | .error fault => return ⟨[], .error (.guard schema fault)⟩
    | .ok builder => do
      let g ← builder.build
      if redact then Run.modify fun s => s.configure { s.settings with redact := true }
      let (reports, fault) ← checkDocuments r g documents
      let lines := reports.flatMap (·.lines quiet)
      match fault with
      | some fault => return ⟨lines, .error (.document fault)⟩
      | none =>
        return ⟨lines ++ [summaryLine file.name reports],
          .ok (if reports.all (·.passed) then 0 else 1)⟩

/-- The text of `describe` and the fault that it ended with, if one did. -/
def runDescribe (r : Reader) (schema : String) : Except CommandFault String :=
  match SchemaFile.load r schema with
  | .error fault => .error (.schema fault)
  | .ok file =>
    match file.describe with
    | .error fault => .error (.schema (.spec fault))
    | .ok text => .ok text

/-- Carry out a command: the text on standard output and the exit code. -/
def runCommand (r : Reader) : Command → Run (String × Except CommandFault Nat)
  | .check schema documents redact quiet => do
    let result ← runCheck r schema documents redact quiet
    return (unlines result.lines, result.code)
  | .describe schema =>
    match runDescribe r schema with
    | .ok text => return (text, .ok 0)
    | .error fault => return ("", .error fault)

/-- Carry out an invocation in an environment. -/
def runInvocation (env : Environment) (r : Reader) (i : Invocation) : Run (String × Nat) := do
  match Settings.ofEnvironment env with
  | .error e =>
    Run.report (.runFailed e.message)
    return ("", 2)
  | .ok settings =>
    Run.modify (·.install settings)
    match ← runCommand r i.command with
    | (text, .ok code) => return (text, code)
    | (text, .error fault) =>
      Run.report (.runFailed fault.message)
      return (text, 2)

def versionText : String := "guardkit 0.1.0\n"

def usageText : String :=
  "usage: guardkit [-v] check --schema <file> [--redact] [--quiet] <document>...\n" ++
  "       guardkit [-v] describe --schema <file>\n"

def execute (args : List String) (env : Environment) (r : Reader) : Execution :=
  match Arguments.parse args with
  | .usage => ⟨2, "", none⟩
  | .version => ⟨0, versionText, some []⟩
  | .help => ⟨0, usageText, some []⟩
  | .run i =>
    match runInvocation env r i (Session.start .standard) with
    | (result, session) =>
      let (text, code) := result.getD ("", 2)
      ⟨code, text, some (session.log.toList.filter (·.shows i.verbosity))⟩

end RecordGuard
