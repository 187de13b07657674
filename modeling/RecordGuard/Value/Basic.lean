import RecordGuard.Calendar.Instant
import RecordGuard.Number.Basic
import RecordGuard.Value.Fields

/-!
# Values

The untyped values that guards classify. A value is taken as it comes: nothing here reads or
checks anything.

## Absence

Two values stand for absence and differ: `undefined`, for what is not there at all, and `null`, for
an explicit nothing.

## Object-like values

Objects, arrays and dates are candidates for a record guard and have own entries: an object its
fields, an array its elements under the decimal texts of their positions, a date none.
-/

namespace RecordGuard

inductive Value where
  /-- Not there at all. -/
  | undefined
  /-- An explicit nothing. -/
  | null
  | bool (b : Bool)
  | number (n : Number)
  | string (s : String)
  /-- A date; without an instant it is a date that denotes none. -/
  | date (instant : Option Instant)
  | array (items : List Value)
  /-- A record, its fields in insertion order. -/
  | object (fields : List (String × Value))
deriving Inhabited

namespace Value

/-! ## Kinds -/

def kindName : Value → String
  | undefined => "undefined"
  | null => "null"
  | bool _ => "boolean"
  | number _ => "number"
  | string _ => "string"
  | date _ => "date"
  | array _ => "array"
  | object _ => "object"

def isUndefined : Value → Bool
  | undefined => true
  | _ => false

def isNull : Value → Bool
  | null => true
  | _ => false

/-- Whether the value is a candidate for a record guard. -/
def isObjectLike : Value → Bool
  | object _ | array _ | date _ => true
  | _ => false

/-! ## Contents -/

def string? : Value → Option String
  | string s => some s
  | _ => none

def number? : Value → Option Number
  | number n => some n
  | _ => none

def bool? : Value → Option Bool
  | bool b => some b
  | _ => none

def items? : Value → Option (List Value)
  | array items => some items
  | _ => none

def fields? : Value → Option (Fields Value)
  | object fields => some fields
  | _ => none

/-- The instant of a date that denotes one. -/
def instant? : Value → Option Instant
  | date instant => instant
  | _ => none

/-- The own entries of an object-like value, in order. -/
def entries? : Value → Option (Fields Value)
  | object fields => some fields
  | array items => some (Fields.ofList items)
  | date _ => some []
  | _ => none

end Value

end RecordGuard
