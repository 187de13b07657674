import RecordGuard.Diagnostics.Settings
import RecordGuard.Value.Text

/-!
# Diagnostics

Notices that explain a verdict. They are advice: no guard looks at them. A diagnostic says that
nothing validates a property that was seen, or that a part of the input was rejected.
-/

namespace RecordGuard

inductive DiagnosticKind where
  /-- A property was seen that nothing validates. -/
  | missingValidator
  /-- A part of the input was rejected. -/
  | validationFailed
deriving DecidableEq

def DiagnosticKind.name : DiagnosticKind → String
  | missingValidator => "missing-validator"
  | validationFailed => "validation-failed"

/-- The part of the input that a diagnostic is about. -/
inductive Target where
  | root
  | property (name : String)
  /-- Some element of an array, whichever it was. -/
  | member
deriving DecidableEq

def Target.text : Target → String
  | root => "root"
  | property name => name
  | member => "a member of the array"

structure Diagnostic where
  kind : DiagnosticKind
  /-- The record guard that speaks; guards that belong to no record leave it out. -/
  schema : Option String
  target : Target
  /-- The text of the offending value, where the kind carries one. -/
  value : Option String
deriving DecidableEq

/-- What stands for a value that is withheld. -/
def withheld : String := "[REDACTED]"

namespace Diagnostic

def missing (schema property : String) : Diagnostic :=
  ⟨.missingValidator, some schema, .property property, none⟩

/-- A predicate of a record guard rejected `value`; the settings decide whether the value shows. -/
def failed (settings : Settings) (schema : String) (target : Target) (value : Value) :
    Diagnostic :=
  ⟨.validationFailed, some schema, target,
    some (if settings.redact then withheld else value.text)⟩

def memberFailed : Diagnostic := ⟨.validationFailed, none, .member, none⟩

def property? (d : Diagnostic) : Option String :=
  match d.target with
  | .property name => some name
  | _ => none

/-- What a diagnostic says, the schema aside. -/
def body (d : Diagnostic) : String :=
  let value := match d.value with
    | some text => ": " ++ text
    | none => ""
  match d.kind, d.target with
  | .missingValidator, target =>
    "no validator registered for property \"" ++ target.text ++ "\""
  | .validationFailed, .property name =>
    "validation failed for property \"" ++ name ++ "\"" ++ value
  | .validationFailed, target => "validation failed for " ++ target.text ++ value

/-- The text of a diagnostic, behind the schema's name in brackets if there is one. -/
def text (d : Diagnostic) : String :=
  match d.schema with
  | some name => "[" ++ name ++ "] " ++ d.body
  | none => d.body

end Diagnostic

end RecordGuard
