import RecordGuard.Diagnostics.Session

/-!
# Programs

A predicate is arbitrary code that looks at a value and comes to a verdict, or fails to. `Program`
is everything such code may do on the way: read and change the settings, send diagnostics, report
events, leave marks and read the marks that were left, capture what another program sends, stop
another program from unwinding past it, and put the predicate of a guard to a value. There is
nothing else, and in particular no way to touch a capture scope except by opening one around a
program, and none to write on the channel of diagnostics except by sending a diagnostic.

`Program.run` says what a program does to a session.
-/

namespace RecordGuard

inductive Effect where
  | emit (d : Diagnostic)
  | configure (settings : Settings)
  /-- Report an event. Diagnostics are reported by sending them. -/
  | report (e : Event) (ordinary : e.isDiagnostic = false := by rfl)
  | mark (m : Mark)

def Session.perform (s : Session) : Effect → Session
  | .emit d => s.emit d
  | .configure settings => s.configure settings
  | .report e _ => s.report e
  | .mark m => s.mark m

/-- Code that comes to a verdict or unwinds. -/
inductive Program where
  | answer (verdict : Bool)
  | panic
  | perform (effect : Effect) (next : Unit → Program)
  /-- Go on according to the settings in effect. -/
  | settings (next : Settings → Program)
  /-- Go on according to the marks left so far. -/
  | marks (next : Array Mark → Program)
  /-- Run `body` in a capture scope of its own and go on with its verdict and what was collected. -/
  | capture (body : Program) (next : Bool → List Diagnostic → Program)
  /-- Run `body` and go on with its verdict, or with none if it unwinds. -/
  | attempt (body : Program) (next : Option Bool → Program)
  /-- Put the predicate of a guard to a value: run `body`, which is that predicate at work, and go on
  with its verdict, which is a rejection if it unwinds. -/
  | ask (guard : String) (value : Value) (body : Program) (next : Bool → Program)

namespace Program

instance : Inhabited Program := ⟨panic⟩

def run : Program → Run Bool
  | answer verdict => Run.pure verdict
  | panic => Run.unwind
  | perform effect next => fun s => (next ()).run (s.perform effect)
  | settings next => fun s => (next s.settings).run s
  | marks next => fun s => (next s.marks).run s
  | capture body next => Run.bind (Run.capture body.run) fun (verdict, ds) => (next verdict ds).run
  | attempt body next => Run.bind (Run.attempt body.run) fun result => (next result).run
  | ask guard _ body next => Run.bind (Run.contain guard body.run) fun verdict => (next verdict).run

/-- Go on after the verdict of a program. -/
def bind (p : Program) (next : Bool → Program) : Program :=
  match p with
  | answer verdict => next verdict
  | panic => panic
  | perform effect rest => perform effect fun u => (rest u).bind next
  | settings rest => settings fun s => (rest s).bind next
  | marks rest => marks fun m => (rest m).bind next
  | capture body rest => capture body fun verdict ds => (rest verdict ds).bind next
  | attempt body rest => attempt body fun result => (rest result).bind next
  | ask guard v body rest => ask guard v body fun verdict => (rest verdict).bind next

def emitThen (d : Diagnostic) (verdict : Bool) : Program :=
  perform (.emit d) fun _ => answer verdict

end Program

/-- A classification of values by a program. -/
abbrev Predicate := Value → Program

/-- Whether all predicates accept a value, asked in order up to the first that does not. -/
def Predicate.all (predicates : List Predicate) (v : Value) : Program :=
  match predicates with
  | [] => .answer true
  | p :: rest => (p v).bind fun verdict => if verdict then all rest v else .answer false

/-- Whether a predicate accepts all values, asked in order up to the first it does not accept. -/
def Predicate.onAll (p : Predicate) (values : List Value) : Program :=
  match values with
  | [] => .answer true
  | v :: rest => (p v).bind fun verdict => if verdict then onAll p rest else .answer false

end RecordGuard
