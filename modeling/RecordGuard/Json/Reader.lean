import RecordGuard.Json.Token

/-!
# Reading JSON

A text is read token by token, the containers that are still open held on a stack. Of the values
given to one key the last counts, at the place of the first. Containers nest to a depth of at
most 127.
-/

namespace RecordGuard.Json

/-- A container part way through, its last elements first. -/
inductive Frame where
  | items (done : List Json)
  /-- The fields read so far, and the key that waits for its value. -/
  | fields (done : Fields Json) (key : String)

inductive Expected where
  /-- A value, or the end of the array just opened. -/
  | valueOrClose
  | value
  /-- A key, or the end of the object just opened; the fields read so far. -/
  | keyOrClose
  | key (done : Fields Json)
  | colon (done : Fields Json) (name : String)
  /-- The separator or end behind this value. -/
  | behind (value : Json)

def maxDepth : Nat := 127

structure State where
  expected : Expected
  stack : List Frame

namespace State

/-- Wait for the first element or key of a container that starts here. -/
def enter (expected : Expected) (frame : Option Frame) (stack : List Frame) : Option State :=
  if maxDepth ≤ stack.length then none
  else some ⟨expected, match frame with
    | some f => f :: stack
    | none => stack⟩

def step (s : State) (t : Token) : Option State :=
  match s.expected, t, s.stack with
  | .valueOrClose, .closeArray, .items _ :: stack => some ⟨.behind (.array []), stack⟩
  | .valueOrClose, .openArray, stack | .value, .openArray, stack =>
    enter .valueOrClose (some (.items [])) stack
  | .valueOrClose, .openObject, stack | .value, .openObject, stack => enter .keyOrClose none stack
  | .valueOrClose, .string text, stack | .value, .string text, stack =>
    some ⟨.behind (.string text), stack⟩
  | .valueOrClose, .atom v, stack | .value, .atom v, stack => some ⟨.behind v, stack⟩
  | .keyOrClose, .closeObject, stack => some ⟨.behind (.object []), stack⟩
  | .keyOrClose, .string name, stack => some ⟨.colon [] name, stack⟩
  | .key done, .string name, stack => some ⟨.colon done name, stack⟩
  | .colon done name, .colon, stack => some ⟨.value, .fields done name :: stack⟩
  | .behind v, .comma, .items done :: stack => some ⟨.value, .items (v :: done) :: stack⟩
  | .behind v, .closeArray, .items done :: stack =>
    some ⟨.behind (.array (v :: done).reverse), stack⟩
  | .behind v, .comma, .fields done name :: stack => some ⟨.key (done.insert name v), stack⟩
  | .behind v, .closeObject, .fields done name :: stack =>
    some ⟨.behind (.object (done.insert name v)), stack⟩
  | _, _, _ => none

def steps (s : State) : List Token → Option State
  | [] => some s
  | t :: rest => (s.step t).bind fun s => s.steps rest

end State

def ofText? (cs : List Char) : Option Json := do
  let tokens ← Token.scan cs
  match ← State.steps ⟨.value, []⟩ tokens with
  | ⟨.behind v, []⟩ => some v
  | _ => none

end RecordGuard.Json
