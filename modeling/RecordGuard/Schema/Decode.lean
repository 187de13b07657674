import RecordGuard.Number.Shortest
import RecordGuard.Schema.Spec
import RecordGuard.Text.Quoted

/-!
# Reading schema files

A schema file is the tree of a document in a certain shape: a mapping with a `name` and, if wanted,
`root`, `suppress_missing` and `properties`, or the sequence of these four in this order, in which
only the first has to be there. A property spec is a kind name, or a mapping with a `type` and, if
wanted, `nullable`, `items` and `values`, or likewise their sequence.

The first fault in file order is reported. The properties are looked into last, after everything
else is found in order.
-/

namespace RecordGuard

/-! ## Faults -/

/-- What a place in a schema file has to hold. -/
inductive Shape where
  | text
  | mapping
  | schema
deriving DecidableEq

def Shape.name : Shape → String
  | text => "a string"
  | mapping => "a map"
  | schema => "struct RawSchemaFile"

inductive ShapeFault where
  | unknownField (name : String)
  | missingName
  | wrongShape (found : Json) (expected : Shape)
  /-- A schema written as a sequence, without any element. -/
  | noElements
  /-- A schema written as a sequence of more elements than it has fields. -/
  | tooManyElements (count : Nat)
  | badRoot
  | badSuppression
  | badProperty (key : String)

def Json.shapeName : Json → String
  | null => "null"
  | bool b => "boolean `" ++ (if b then "true" else "false") ++ "`"
  | number (.integer z) => "integer `" ++ toString z ++ "`"
  | number (.float n) => "floating point `" ++ String.ofList n.scientificChars ++ "`"
  | string s => "string " ++ quote s
  | array _ => "sequence"
  | object _ => "map"

def notPropertySpec : String := "data did not match any variant of untagged enum PropertySpec"

def ShapeFault.message : ShapeFault → String
  | unknownField name =>
    "unknown field `" ++ name ++
      "`, expected one of `name`, `root`, `suppress_missing`, `properties`"
  | missingName => "missing field `name`"
  | wrongShape found expected =>
    "invalid type: " ++ found.shapeName ++ ", expected " ++ expected.name
  | noElements => "invalid length 0, expected struct RawSchemaFile with 4 elements"
  | tooManyElements count =>
    "invalid length " ++ Nat.repr count ++ ", expected fewer elements in array"
  | badRoot => notPropertySpec
  | badSuppression => "data did not match any variant of untagged enum SuppressSpec"
  | badProperty key => "property '" ++ key ++ "': " ++ notPropertySpec

/-! ## Property specs -/

/-- The options of a property spec as far as they were read. -/
structure SpecParts where
  kind : Option String
  nullable : Bool
  items : Option PropertySpec
  values : Option (Fields Json)

namespace SpecParts

def none : SpecParts := ⟨.none, false, .none, .none⟩

def spec? (p : SpecParts) : Option PropertySpec :=
  p.kind.map fun kind => .detailed kind p.nullable p.items p.values

def setKind (p : SpecParts) : Json → Option SpecParts
  | .string kind => some { p with kind }
  | _ => .none

def setNullable (p : SpecParts) : Json → Option SpecParts
  | .bool nullable => some { p with nullable }
  | _ => .none

def setValues (p : SpecParts) : Json → Option SpecParts
  | .null => some { p with values := .none }
  | .object fields => some { p with values := some fields }
  | _ => .none

end SpecParts

namespace PropertySpec

mutual

/-- The property spec that a tree writes, if it writes one. -/
def ofJson? : Json → Option PropertySpec
  | .string kind => some (.bare kind)
  | .object fields => (ofFields? .none fields).bind SpecParts.spec?
  | .array [kind] => (SpecParts.none.setKind kind).bind SpecParts.spec?
  | .array [kind, nullable] => do
    let p ← SpecParts.none.setKind kind
    let p ← p.setNullable nullable
    p.spec?
  | .array [kind, nullable, items] => do
    let p ← SpecParts.none.setKind kind
    let p ← p.setNullable nullable
    let items ← ofItems? items
    SpecParts.spec? { p with items }
  | .array [kind, nullable, items, values] => do
    let p ← SpecParts.none.setKind kind
    let p ← p.setNullable nullable
    let items ← ofItems? items
    let p ← SpecParts.setValues { p with items } values
    p.spec?
  | _ => none

/-- The spec of array elements, which may be left open. -/
def ofItems? : Json → Option (Option PropertySpec)
  | .null => some none
  | j => (ofJson? j).map some

/-- The options that the fields of a mapping set, one after the other. -/
def ofFields? (p : SpecParts) : List (String × Json) → Option SpecParts
  | [] => some p
  | (key, j) :: rest =>
    match key with
    | "type" => (p.setKind j).bind fun p => ofFields? p rest
    | "nullable" => (p.setNullable j).bind fun p => ofFields? p rest
    | "items" => (ofItems? j).bind fun items => ofFields? { p with items } rest
    | "values" => (p.setValues j).bind fun p => ofFields? p rest
    | _ => none

end

end PropertySpec

/-! ## Suppression -/

def Json.texts? : List Json → Option (List String)
  | [] => some []
  | .string s :: rest => (texts? rest).map (s :: ·)
  | _ => none

def SuppressSpec.ofJson? : Json → Option SuppressSpec
  | .bool suppressed => some (.all suppressed)
  | .array items => (Json.texts? items).map .keys
  | _ => none

/-! ## Schema files -/

/-- A schema file before its properties are looked into. -/
structure SchemaParts where
  name : Option String
  root : Option PropertySpec
  suppressMissing : Option SuppressSpec
  properties : Fields Json

namespace SchemaParts

def none : SchemaParts := ⟨.none, .none, .none, []⟩

def setName (p : SchemaParts) : Json → Except ShapeFault SchemaParts
  | .string s => .ok { p with name := some s }
  | j => .error (.wrongShape j .text)

def setRoot (p : SchemaParts) : Json → Except ShapeFault SchemaParts
  | .null => .ok { p with root := .none }
  | j =>
    match PropertySpec.ofJson? j with
    | some spec => .ok { p with root := some spec }
    | .none => .error .badRoot

def setSuppression (p : SchemaParts) : Json → Except ShapeFault SchemaParts
  | .null => .ok { p with suppressMissing := .none }
  | j =>
    match SuppressSpec.ofJson? j with
    | some spec => .ok { p with suppressMissing := some spec }
    | .none => .error .badSuppression

def setProperties (p : SchemaParts) : Json → Except ShapeFault SchemaParts
  | .object fields => .ok { p with properties := fields }
  | j => .error (.wrongShape j .mapping)

def setField (p : SchemaParts) : String × Json → Except ShapeFault SchemaParts
  | ("name", j) => p.setName j
  | ("root", j) => p.setRoot j
  | ("suppress_missing", j) => p.setSuppression j
  | ("properties", j) => p.setProperties j
  | (key, _) => .error (.unknownField key)

/-- The setters of the fields in the order in which a sequence gives them. -/
def setters : List (SchemaParts → Json → Except ShapeFault SchemaParts) :=
  [setName, setRoot, setSuppression, setProperties]

def ofJson : Json → Except ShapeFault SchemaParts
  | .object fields => fields.foldlM setField none
  | .array [] => .error .noElements
  | .array items => do
    let p ← (setters.zip items).foldlM (fun p (set, j) => set p j) none
    if setters.length < items.length then .error (.tooManyElements items.length) else .ok p
  | j => .error (.wrongShape j .schema)

end SchemaParts

namespace SchemaFile

/-- A property with the spec its tree writes. -/
def property : String × Json → Except ShapeFault (String × PropertySpec)
  | (key, j) =>
    match PropertySpec.ofJson? j with
    | some spec => .ok (key, spec)
    | none => .error (.badProperty key)

def ofJson (j : Json) : Except ShapeFault SchemaFile := do
  let parts ← SchemaParts.ofJson j
  match parts.name with
  | none => .error .missingName
  | some name =>
    return ⟨name, parts.root, parts.suppressMissing, ← parts.properties.mapM property⟩

end SchemaFile

end RecordGuard
