import RecordGuard.Guard.Basic

/-!
# Building record guards

A record guard is built in steps, in any order and with no demand that anything be covered. A
validator is a guard or a predicate of the caller's own. One given for the whole candidate runs
under the label `root`, one given for a property under the property's key; ignoring a property
registers the guard that accepts everything.

`Builder.build` reports the finished guard; `Builder.guard` is the guard itself.
-/

namespace RecordGuard

abbrev Builder := Registry Guard

inductive Validator where
  | code (predicate : Predicate)
  | guard (g : Guard)

instance : Coe Guard Validator := ⟨.guard⟩

namespace Validator

def predicate : Validator → Predicate
  | code predicate => predicate
  | guard g => g.check

/-- The guard that runs a validator under a label. -/
def labelled (label : String) : Validator → Guard
  | code predicate => .custom label predicate
  | guard g => .named label g

end Validator

inductive BuildStep where
  /-- Validate the whole candidate, and pass over unvalidated properties in silence. -/
  | root (validator : Validator)
  /-- Validate a property, after the validators it has. -/
  | property (key : String) (validator : Validator)
  /-- Count a property as validated without constraining it. -/
  | ignore (key : String)
  /-- Leave out notices about these keys, or about all if there are none. -/
  | suppress (keys : List String)
  | suppressAll

/-- The key that a step registers a validator for. -/
def BuildStep.key? : BuildStep → Option String
  | property key _ | ignore key => some key
  | _ => none

namespace Builder

def start (schema : String) : Builder := Registry.empty schema

def addRoot (b : Builder) (validator : Validator) : Builder :=
  { b with roots := b.roots ++ [validator.labelled "root"] }

def addProperty (b : Builder) (key : String) (validator : Validator) : Builder :=
  { b with properties := b.properties ++ [(key, validator.labelled key)] }

def step (b : Builder) : BuildStep → Builder
  | .root validator => b.addRoot validator
  | .property key validator => b.addProperty key validator
  | .ignore key => b.addProperty key Guard.any
  | .suppress keys => { b with suppression := b.suppression.extend keys }
  | .suppressAll => { b with suppression := b.suppression.extend [] }

def steps (b : Builder) (ss : List BuildStep) : Builder := ss.foldl step b

/-- The record guard of what was registered. -/
def guard (b : Builder) : Guard := .record b

def builtEvent (b : Builder) : Event :=
  .recordGuardBuilt b.schema b.keys.length b.roots.length

def build (b : Builder) : Run Guard := do
  Run.report b.builtEvent
  return b.guard

end Builder

end RecordGuard
