import RecordGuard.Guard.Builder
import RecordGuard.Schema.Spec

/-!
# Guards of a schema file

Every spec resolves to a rule: a guard of the library, or no constraint at all. The record guard of
a file is built from the rules of its root and properties in file order; its description lists the
labels of the same rules, so the two fail together and with the same fault.

A fault names the root or the property, with a pair of brackets for each array that was entered to
find it.
-/

namespace RecordGuard

inductive SpecFault where
  | unknownKind (property kind : String)
  /-- An array of elements without a spec for them. -/
  | missingItems (property : String)
  /-- An enumeration without declarations. -/
  | missingValues (property kind : String)
deriving DecidableEq

def SpecFault.message : SpecFault → String
  | unknownKind property kind => "property '" ++ property ++ "': unknown kind '" ++ kind ++ "'"
  | missingItems property => "property '" ++ property ++ "': kind 'array-of' requires 'items'"
  | missingValues property kind =>
    "property '" ++ property ++ "': kind '" ++ kind ++ "' requires 'values'"

inductive Rule where
  | ignore
  | check (g : Guard)

def Rule.label : Rule → String
  | ignore => "ignored"
  | check g => g.label

/-- The guards of kinds that need no options. -/
def plainGuard? : String → Option Guard
  | "string" => some .string
  | "number" => some .number
  | "boolean" => some .boolean
  | "object" => some .object
  | "date" => some .date
  | "date-string" => some .dateString
  | "array" => some .array
  | _ => none

/-- An array whose elements follow a rule. -/
def Rule.arrayGuard : Rule → Guard
  | ignore => .array
  | check element => .arrayOf element

/-- The enumeration that the values of a spec declare. -/
def Enumeration.ofJsonFields (values : Fields Json) : Enumeration := ⟨Value.ofJsonFields values⟩

namespace PropertySpec

/-- Let absent values pass where the spec says so. -/
def wrap (nullable : Bool) (g : Guard) : Rule :=
  .check (if nullable then .nullable g [] else g)

/-- The rule of a spec of the given kind, the rule of its elements being resolved already. -/
def resolveKind (property kind : String) (nullable : Bool)
    (items : Option (Except SpecFault Rule)) (values : Option (Fields Json)) :
    Except SpecFault Rule :=
  match kind with
  | "ignore" | "any" => .ok .ignore
  | "array-of" =>
    match items with
    | none => .error (.missingItems property)
    | some element => element.map fun rule => wrap nullable rule.arrayGuard
  | "member-of" =>
    match values with
    | none => .error (.missingValues property kind)
    | some fields => .ok (wrap nullable (.memberOf (.ofJsonFields fields)))
  | "key-of" =>
    match values with
    | none => .error (.missingValues property kind)
    | some fields => .ok (wrap nullable (.keyOf (.ofJsonFields fields)))
  | _ =>
    match plainGuard? kind with
    | some g => .ok (wrap nullable g)
    | none => .error (.unknownKind property kind)

/-- The rule of a spec. Specs of elements are looked at only where the kind has elements. -/
def resolve (property : String) : PropertySpec → Except SpecFault Rule
  | bare kind => resolveKind property kind false none none
  | detailed kind nullable none values => resolveKind property kind nullable none values
  | detailed kind nullable (some items) values =>
    resolveKind property kind nullable (some (resolve (property ++ "[]") items)) values

end PropertySpec

namespace SchemaFile

def rootRule? (f : SchemaFile) : Except SpecFault (Option Rule) :=
  match f.root with
  | none => .ok none
  | some spec => (spec.resolve "root").map some

def propertyRules (f : SchemaFile) : Except SpecFault (List (String × Rule)) :=
  f.properties.mapM fun (key, spec) => (spec.resolve key).map fun rule => (key, rule)

def rootStep : Rule → BuildStep
  | .ignore => .root Guard.any
  | .check g => .root g

def propertyStep : String × Rule → BuildStep
  | (key, .ignore) => .ignore key
  | (key, .check g) => .property key g

/-- The step that leaves out the notices which the file does not want. -/
def suppressSteps (f : SchemaFile) : List BuildStep :=
  match f.suppressMissing with
  | some (.all true) => [.suppressAll]
  | some (.keys keys) => [.suppress keys]
  | some (.all false) | none => []

def builder (f : SchemaFile) : Except SpecFault Builder := do
  let root ← f.rootRule?
  let properties ← f.propertyRules
  return (Builder.start f.name).steps
    ((root.map rootStep).toList ++ properties.map propertyStep ++ f.suppressSteps)

def suppressText (f : SchemaFile) : String :=
  match f.suppressMissing with
  | some (.all true) | some (.keys []) => "all"
  | some (.keys keys) => ", ".intercalate keys
  | some (.all false) | none => "none"

/-- A summary of a file: the labels of its root and properties, and what is suppressed. -/
def describe (f : SchemaFile) : Except SpecFault String := do
  let root ← f.rootRule?
  let properties ← f.propertyRules
  let rootLine := match root with
    | some rule => "root: " ++ rule.label ++ "\n"
    | none => ""
  let propertyLines := properties.map fun (key, rule) => "  " ++ key ++ ": " ++ rule.label ++ "\n"
  return "schema: " ++ f.name ++ "\n" ++ rootLine ++ "properties:\n" ++
    String.join propertyLines ++
    "suppressed missing-validator warnings: " ++ f.suppressText ++ "\n"

end SchemaFile

end RecordGuard
