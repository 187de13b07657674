import RecordGuard.Guard.Kind
import RecordGuard.Guard.Registry

/-!
# Guards

A guard classifies values under a label. Guards are trees: kinds and predicates of the caller's own
at the leaves, and above them a change of label, the acceptance of absent values, arrays of what
another guard accepts, and records.

`Guard.check` is the classification as a program: a guard puts its own predicate to the value, so
that what unwinds is contained there, reported, and taken for a rejection.
-/

namespace RecordGuard

inductive Guard where
  | kind (k : Kind)
  | custom (label : String) (predicate : Predicate)
  /-- Another guard under a label of its own. -/
  | named (label : String) (inner : Guard)
  /-- `base`, or one of the sentinels. -/
  | nullable (base : Guard) (sentinels : List Value)
  | arrayOf (element : Guard)
  | record (registry : Registry Guard)

namespace Guard

/-! ## The library -/

def any : Guard := kind .any
def string : Guard := kind .string
def number : Guard := kind .number
def boolean : Guard := kind .boolean
def object : Guard := kind .object
def date : Guard := kind .date
def dateString : Guard := kind .dateString
def array : Guard := kind .array

def memberOf (e : Enumeration) : Guard := kind (.memberOf e.values)

def keyOf (e : Enumeration) : Guard := kind (.keyOf e.keys)

/-! ## Labels -/

def label : Guard → String
  | kind k => k.label
  | custom label _ => label
  | named label _ => label
  | nullable base _ => base.label ++ " | nullish"
  | arrayOf element => element.label ++ "[]"
  | record registry => registry.schema

/-- How a guard shows itself: by its label. -/
def summary (g : Guard) : String := "Guard \x7b label: " ++ quote g.label ++ " \x7d"

/-! ## Classification -/

/-- Absent values are accepted before the base is asked. -/
def nullableTest (sentinels : List Value) (base : Predicate) : Predicate := fun v =>
  if v.isAbsent sentinels then .answer true else base v

/-- The elements are asked in order, and the first rejection is noted without its position. -/
def arrayTest (element : Predicate) : Predicate := fun v =>
  match v.items? with
  | none => .answer false
  | some items =>
    (Predicate.onAll element items).bind fun verdict =>
      if verdict then .answer true else .emitThen .memberFailed false

mutual

def check (g : Guard) : Predicate := fun v =>
  match g with
  | kind k => .ask k.label v (k.predicate v) .answer
  | custom label predicate => .ask label v (predicate v) .answer
  | named label inner => .ask label v (inner.check v) .answer
  | nullable base sentinels =>
    .ask (base.label ++ " | nullish") v (nullableTest sentinels base.check v) .answer
  | arrayOf element => .ask (element.label ++ "[]") v (arrayTest element.check v) .answer
  | record registry => .ask registry.schema v ((checkRegistry registry).evaluate v) .answer

/-- The registry of a record with its guards as predicates. -/
def checkRegistry : Registry Guard → Registry Predicate
  | ⟨schema, roots, properties, suppression⟩ =>
    ⟨schema, checkAll roots, checkProperties properties, suppression⟩

def checkAll : List Guard → List Predicate
  | [] => []
  | g :: rest => g.check :: checkAll rest

def checkProperties : List (String × Guard) → List (String × Predicate)
  | [] => []
  | (key, g) :: rest => (key, g.check) :: checkProperties rest

end

def verdict (g : Guard) (v : Value) : Run Bool := (g.check v).run

end Guard

end RecordGuard
