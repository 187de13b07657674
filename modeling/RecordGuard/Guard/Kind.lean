import RecordGuard.Calendar.Written
import RecordGuard.Diagnostics.Program
import RecordGuard.Value.Absence

/-!
# Kinds

The classes of values that the library names: the primitive kinds, dates, texts that name a date,
and the members and keys of an enumeration. A kind looks at one value and at nothing inside it; only
the text that names no date leaves anything behind, an event.
-/

namespace RecordGuard

/-- Declared keys and values in order; nothing keeps either from being repeated. -/
structure Enumeration where
  entries : List (String × Value)

namespace Enumeration

def keys (e : Enumeration) : List String := e.entries.map (·.1)

def values (e : Enumeration) : List Value := e.entries.map (·.2)

end Enumeration

inductive Kind where
  | any
  | string
  /-- Every number, NaN and the infinities included. -/
  | number
  | boolean
  /-- Every candidate for a record guard: objects, arrays and dates. -/
  | object
  /-- A date that denotes an instant. -/
  | date
  | dateString
  | array
  | memberOf (members : List Value)
  | keyOf (keys : List String)

namespace Kind

def label : Kind → String
  | any => "unknown"
  | string => "string"
  | number => "number"
  | boolean => "boolean"
  | object => "object"
  | date => "date"
  | dateString => "date-string"
  | array => "array"
  | memberOf _ => "enum-member"
  | keyOf _ => "enum-key"

def accepts (k : Kind) (v : Value) : Bool :=
  match k with
  | any => true
  | string => v.string?.isSome
  | number => v.number?.isSome
  | boolean => v.bool?.isSome
  | object => v.isObjectLike
  | date => v.instant?.isSome
  | dateString => (v.string?.bind Instant.ofText?).isSome
  | array => v.items?.isSome
  | memberOf members => members.any fun m => m.equal v
  | keyOf keys => v.string?.any fun s => keys.contains s

/-- The report on a text that was read as a date and names none. -/
def dateEvent (s : String) : Event := .dateNotRecognized (String.ofList (trim s.toList))

def predicate (k : Kind) : Predicate := fun v =>
  match k, v with
  | dateString, .string s =>
    match Instant.ofText? s with
    | some _ => .answer true
    | none => .perform (.report (dateEvent s)) fun _ => .answer false
  | k, v => .answer (k.accepts v)

end Kind

/-- The instant that a text names; a text that names none is reported. -/
def Run.readDate (s : String) : Run (Option Instant) :=
  match Instant.ofText? s with
  | some i => Run.pure (some i)
  | none => Run.bind (Run.report (Kind.dateEvent s)) fun _ => Run.pure none

end RecordGuard
