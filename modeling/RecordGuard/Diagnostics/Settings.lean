import RecordGuard.Text.Blank
import RecordGuard.Text.Quoted
import RecordGuard.Value.Fields

/-!
# Diagnostic settings

Two switches govern diagnostics: whether there are any, and whether the values they carry are
replaced by a placeholder. They are read whenever a diagnostic is made or sent, never earlier, so a
guard follows every change made after it was built.

The environment may set both. A variable that is not set, or whose bytes are not a text, leaves the
default; one that is a text has to spell a truth value, or reading the settings fails.
-/

namespace RecordGuard

structure Settings where
  enabled : Bool
  redact : Bool
deriving DecidableEq

namespace Settings

def standard : Settings := ⟨true, false⟩

instance : Inhabited Settings := ⟨standard⟩

end Settings

/-! ## The environment -/

/-- Environment variables and the bytes they are set to. -/
abbrev Environment := Fields ByteArray

structure InvalidFlag where
  var : String
  value : String
deriving DecidableEq

def InvalidFlag.message (e : InvalidFlag) : String :=
  "invalid value for " ++ e.var ++ ": " ++ quote e.value ++
    " (expected one of 1/0, true/false, on/off, yes/no)"

/-- The truth value that a text spells, white space around it and the case of its ASCII letters
aside. -/
def flag? (s : String) : Option Bool :=
  match String.ofList ((trim s.toList).map Char.toLower) with
  | "1" | "true" | "on" | "yes" => some true
  | "0" | "false" | "off" | "no" => some false
  | _ => none

namespace Environment

/-- The text of a variable, if it is set and its bytes are a text. -/
def text? (env : Environment) (var : String) : Option String :=
  (env.get? var).bind String.fromUTF8?

/-- The truth value of a variable, or the default if it has no text. -/
def flag (env : Environment) (var : String) (default : Bool) : Except InvalidFlag Bool :=
  match env.text? var with
  | none => .ok default
  | some s =>
    match flag? s with
    | some b => .ok b
    | none => .error ⟨var, s⟩

end Environment

def Settings.enabledVar : String := "GUARDKIT_DIAGNOSTICS"

def Settings.redactVar : String := "GUARDKIT_REDACT_VALUES"

/-- The settings that an environment asks for. Of two variables that are wrong the first is
reported. -/
def Settings.ofEnvironment (env : Environment) : Except InvalidFlag Settings := do
  let enabled ← env.flag enabledVar standard.enabled
  let redact ← env.flag redactVar standard.redact
  return ⟨enabled, redact⟩

end RecordGuard
