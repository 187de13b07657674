import RecordGuard.Diagnostics.Program

/-!
# Registries

What a record guard consists of, over whatever it calls a validator: the schema's name, validators
for the whole candidate, validators for single properties in the order in which they were
registered, and which properties may go unvalidated without a notice.

## Evaluation

`Registry.evaluate` classifies a candidate.

* **Not object-like**: rejected, and nothing is called or said.
* **The whole candidate**: its validators are asked in order. The first that rejects ends the
  evaluation with a diagnostic for the root.
* **Own entries**, in order. Where validators are registered for the key they are all asked in
  order, and the first that rejects ends the evaluation with a diagnostic for that property. Where
  none is, a notice says so, unless the key is suppressed or the whole candidate had validators.
* **No own entries**: accepted only if the whole candidate had validators or no property has any.
-/

namespace RecordGuard

structure Suppression where
  all : Bool
  keys : List String
deriving DecidableEq

namespace Suppression

def none : Suppression := ⟨false, []⟩

def suppresses (s : Suppression) (key : String) : Bool := s.all || s.keys.contains key

/-- Leave out the notices about these keys as well, or all notices if there are no keys. -/
def extend (s : Suppression) (keys : List String) : Suppression :=
  if keys.isEmpty then { s with all := true } else { s with keys := s.keys ++ keys }

end Suppression

/-- Validators accumulated for one schema. -/
structure Registry (α : Type) where
  schema : String
  roots : List α
  /-- Validators of single properties, each under its key, in registration order. -/
  properties : List (String × α)
  suppression : Suppression

namespace Registry

variable {α : Type}

def empty (schema : String) : Registry α := ⟨schema, [], [], Suppression.none⟩

def hasRoot (r : Registry α) : Bool := !r.roots.isEmpty

/-- The keys that have a validator, in the order of their first registration. -/
def keys (r : Registry α) : List String := (r.properties.map (·.1)).eraseDups

def validators (r : Registry α) (key : String) : List α :=
  (r.properties.filter fun entry => entry.1 = key).map (·.2)

/-- Whether a key is passed over in silence where it has no validator. -/
def isSilent (r : Registry α) (key : String) : Bool := r.hasRoot || r.suppression.suppresses key

end Registry

namespace Registry

def reject (schema : String) (target : Target) (v : Value) : Program :=
  .settings fun s => .emitThen (.failed s schema target v) false

/-- Classify own entries one after the other, and come to `last` if none is rejected. -/
def entries (r : Registry Predicate) (last : Bool) : Fields Value → Program
  | [] => .answer last
  | (key, v) :: rest =>
    match r.validators key with
    | [] =>
      if r.isSilent key then entries r last rest
      else .perform (.emit (.missing r.schema key)) fun _ => entries r last rest
    | validators =>
      (Predicate.all validators v).bind fun verdict =>
        if verdict then entries r last rest else reject r.schema (.property key) v

def acceptsEmpty (r : Registry Predicate) : Bool := r.hasRoot || r.properties.isEmpty

def evaluate (r : Registry Predicate) : Predicate := fun v =>
  match v.entries? with
  | none => .answer false
  | some fields =>
    (Predicate.all r.roots v).bind fun verdict =>
      if verdict then entries r (!fields.isEmpty || r.acceptsEmpty) fields
      else reject r.schema .root v

end Registry

end RecordGuard
