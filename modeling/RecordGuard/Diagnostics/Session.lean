import RecordGuard.Diagnostics.Event

/-!
# Sessions

A session is everything that evaluation reads and leaves behind: the settings in effect, the open
capture scopes, the events reported so far, and the marks that predicates chose to leave. A `Run`
takes a session to a session and either comes to a result or unwinds without one; the session it
leaves stands in both cases.

## Capture

A diagnostic that is sent goes to the event log and to every open scope. The open scopes stand on
one stack, and a scope is known by its position there. `Run.capture` opens a scope and runs its
body. If the body comes to a result, what stands at the position is taken out; and however the body
ended, the stack is cut off at the position.
-/

namespace RecordGuard

/-- What a predicate may leave for later: predicates can read marks, and so can whoever looks at the
session afterwards. -/
inductive Mark where
  | called (name : String)
  /-- A scope that a predicate opened had collected diagnostics with these texts. -/
  | collected (texts : List String)
deriving DecidableEq

structure Session where
  settings : Settings
  /-- What each open capture scope has collected, innermost scope last. -/
  scopes : List (Array Diagnostic)
  log : Array Event
  marks : Array Mark

namespace Session

def start (settings : Settings) : Session := ⟨settings, [], #[], #[]⟩

def report (s : Session) (e : Event) : Session := { s with log := s.log.push e }

def mark (s : Session) (m : Mark) : Session := { s with marks := s.marks.push m }

def configure (s : Session) (settings : Settings) : Session := { s with settings }

def install (s : Session) (settings : Settings) : Session :=
  (s.configure settings).report (.settingsInstalled settings)

/-- Send a diagnostic to the log and to every open scope, or nowhere while diagnostics are off. -/
def emit (s : Session) (d : Diagnostic) : Session :=
  if s.settings.enabled then
    { s.report (.diagnosed d) with scopes := s.scopes.map (·.push d) }
  else s

/-- Open a scope on top of the stack: its position, and the session. -/
def openScope (s : Session) : Nat × Session :=
  (s.scopes.length, { s with scopes := s.scopes ++ [#[]] })

/-- Take what the scope at a position has collected, which leaves it empty. -/
def takeScope (s : Session) (position : Nat) : List Diagnostic × Session :=
  ((s.scopes[position]?.getD #[]).toList, { s with scopes := s.scopes.set position #[] })

/-- Cut the stack off at a position: the scope there is closed, and every scope above it. -/
def dropScope (s : Session) (position : Nat) : Session :=
  { s with scopes := s.scopes.take position }

end Session

/-- A computation in a session. It comes to a result, or unwinds and has none. -/
def Run (α : Type) := Session → Option α × Session

namespace Run

variable {α β : Type}

def pure (a : α) : Run α := fun s => (some a, s)

/-- Go on with the result of `r`, if it comes to one. -/
def bind (r : Run α) (next : α → Run β) : Run β := fun s =>
  match r s with
  | (some a, s) => next a s
  | (none, s) => (none, s)

instance : Monad Run where
  pure := Run.pure
  bind := Run.bind

def unwind : Run α := fun s => (none, s)

def modify (f : Session → Session) : Run Unit := fun s => (some (), f s)

def inspect (f : Session → α) : Run α := fun s => (some (f s), s)

def report (e : Event) : Run Unit := modify (·.report e)

/-- Run a body and collect the diagnostics that are sent while it runs. -/
def capture (body : Run α) : Run (α × List Diagnostic) := fun s =>
  let (position, s) := s.openScope
  match body s with
  | (some a, s) =>
    let (collected, s) := s.takeScope position
    (some (a, collected), s.dropScope position)
  | (none, s) => (none, s.dropScope position)

/-- Run a body and come to a result even if it unwinds. -/
def attempt (body : Run α) : Run (Option α) := fun s =>
  let (result, s) := body s
  (some result, s)

/-- Run a body under the name of a guard: where it unwinds, that is reported and the verdict is a
rejection. -/
def contain (guard : String) (body : Run Bool) : Run Bool :=
  bind (attempt body) fun
    | some verdict => pure verdict
    | none => bind (report (.predicatePanicked guard)) fun _ => pure false

end Run

end RecordGuard
