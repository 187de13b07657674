import RecordGuard.Diagnostics.Diagnostic

/-!
# Events

What the library reports about its own work as it goes: one constructor for each occasion, and one
place (`Event.level`, `Event.message`, `Event.fields`) for how each is written. A diagnostic that is
sent is an event too, on a channel of its own.
-/

namespace RecordGuard

inductive Level where
  | error
  | warn
  | info
  | debug
  | trace
deriving DecidableEq

def Level.name : Level → String
  | error => "ERROR"
  | warn => "WARN"
  | info => "INFO"
  | debug => "DEBUG"
  | trace => "TRACE"

/-- Position on the scale of detail: the more severe, the smaller. -/
def Level.detail : Level → Nat
  | error => 0
  | warn => 1
  | info => 2
  | debug => 3
  | trace => 4

inductive Event where
  | diagnosed (d : Diagnostic)
  /-- A predicate of the named guard did not come to an answer. -/
  | predicatePanicked (guard : String)
  | settingsInstalled (settings : Settings)
  | recordGuardBuilt (schema : String) (properties roots : Nat)
  /-- A validator was given for a key that the schema does not declare. -/
  | undeclaredKey (schema key : String)
  /-- A record guard was asked for before its schema was covered. -/
  | buildRefused (schema : String) (missing : List String)
  /-- A text is in none of the forms of a date. -/
  | dateNotRecognized (input : String)
  | documentChecked (path : String) (passed : Bool)
  | runFailed (reason : String)
deriving DecidableEq

structure EventField where
  name : String
  text : String
  /-- Whether a line of text shows it between quotes. -/
  quoted : Bool
deriving DecidableEq

namespace Event

def level : Event → Level
  | diagnosed _ => .warn
  | predicatePanicked _ | runFailed _ => .error
  | settingsInstalled _ | recordGuardBuilt .. | undeclaredKey .. | buildRefused .. => .debug
  | dateNotRecognized _ => .trace
  | documentChecked .. => .info

/-- Whether the event went out on the channel of diagnostics. -/
def isDiagnostic : Event → Bool
  | diagnosed _ => true
  | _ => false

def message : Event → String
  | diagnosed d => d.text
  | predicatePanicked _ => "predicate panicked; classifying value as rejected"
  | settingsInstalled _ => "diagnostic configuration installed"
  | recordGuardBuilt .. => "record guard built"
  | undeclaredKey .. => "validator registered for a key the schema does not declare"
  | buildRefused .. => "refusing to build incomplete record guard"
  | dateNotRecognized _ => "string is not a recognized date form"
  | documentChecked .. => "document checked"
  | runFailed reason => reason

def boolText (b : Bool) : String := if b then "true" else "false"

def fields : Event → List EventField
  | diagnosed d =>
    [⟨"kind", d.kind.name, false⟩, ⟨"schema", d.schema.getD "", true⟩,
      ⟨"property", d.target.text, false⟩]
  | predicatePanicked guard => [⟨"guard", guard, false⟩]
  | settingsInstalled s =>
    [⟨"enabled", boolText s.enabled, false⟩, ⟨"redact_values", boolText s.redact, false⟩]
  | recordGuardBuilt schema properties roots =>
    [⟨"schema", schema, true⟩, ⟨"properties", Nat.repr properties, false⟩,
      ⟨"roots", Nat.repr roots, false⟩]
  | undeclaredKey schema key => [⟨"schema", schema, true⟩, ⟨"key", key, true⟩]
  | buildRefused schema missing =>
    [⟨"schema", schema, true⟩, ⟨"missing", quoteList missing, false⟩]
  | dateNotRecognized input => [⟨"input", input, true⟩]
  | documentChecked path passed =>
    [⟨"document", path, false⟩, ⟨"passed", boolText passed, false⟩]
  | runFailed _ => []

end Event

end RecordGuard
