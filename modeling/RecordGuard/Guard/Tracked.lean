import RecordGuard.Guard.Builder

/-!
# Building with a declared schema

A tracked builder knows which keys its schema declares and keeps account of those that were
validated or ignored. It refuses to build while a declared key is missing, unless the whole
candidate is validated, which covers any schema. What it builds is the guard that the untracked
builder makes of the same steps.
-/

namespace RecordGuard

/-- A record guard in the making, and how much of a declared schema it covers. -/
structure TrackedBuilder where
  /-- The keys that the schema declares, in order, with any repetitions. -/
  declared : List String
  builder : Builder
  /-- The keys given so far, each once, in the order in which they first came. -/
  addressed : List String

structure Incomplete where
  schema : String
  /-- The declared keys that were never given, in declaration order. -/
  missing : List String
deriving DecidableEq

def Incomplete.message (e : Incomplete) : String :=
  "schema '" ++ e.schema ++ "' is incomplete; missing properties: " ++
    ", ".intercalate e.missing

namespace TrackedBuilder

def start (declared : List String) (schema : String) : TrackedBuilder :=
  ⟨declared, Builder.start schema, []⟩

/-- Whether the whole candidate is validated, which covers the schema. -/
def isCovered (t : TrackedBuilder) : Bool := t.builder.hasRoot

def missing (t : TrackedBuilder) : List String :=
  t.declared.filter fun key => !t.addressed.contains key

def isComplete (t : TrackedBuilder) : Bool := t.missing.isEmpty

def address (t : TrackedBuilder) (key : String) : TrackedBuilder :=
  if t.addressed.contains key then t else { t with addressed := t.addressed ++ [key] }

/-- One step of building. Keys that the schema does not declare are taken like any other. -/
def step (t : TrackedBuilder) (s : BuildStep) : TrackedBuilder :=
  let t := match s.key? with
    | some key => t.address key
    | none => t
  { t with builder := t.builder.step s }

def steps (t : TrackedBuilder) (ss : List BuildStep) : TrackedBuilder := ss.foldl step t

def guard? (t : TrackedBuilder) : Except Incomplete Guard :=
  if t.isCovered || t.isComplete then .ok t.builder.guard
  else .error ⟨t.builder.schema, t.missing⟩

/-! ## With reports -/

/-- One step of building. A key that the schema does not declare is reported. -/
def stepReported (t : TrackedBuilder) (s : BuildStep) : Run TrackedBuilder := do
  match s.key? with
  | some key =>
    if !t.declared.contains key then Run.report (.undeclaredKey t.builder.schema key)
  | none => pure ()
  return t.step s

def build (t : TrackedBuilder) : Run (Except Incomplete Guard) := do
  match t.guard? with
  | .ok g =>
    Run.report t.builder.builtEvent
    return .ok g
  | .error e =>
    Run.report (.buildRefused e.schema e.missing)
    return .error e

end TrackedBuilder

end RecordGuard
