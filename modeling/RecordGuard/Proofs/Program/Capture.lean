import RecordGuard.Guard.Basic
import RecordGuard.Proofs.Program.History

/-!
# What a capture collects

Capture scopes stand on one stack, are opened and closed by position, and are closed in two ways:
where the body comes to a verdict its scope is emptied first, where it unwinds the stack is only cut
off. This module shows that none of this can be seen from outside.

* **`Event.diagnostic?`**, **`diagnosed_logged`** — the channel of diagnostics in the log carries
  what is delivered to the scopes, in the same order.
* **`Program.Enclosed`** — one program is another with any of its parts run in scopes of their own.
* **`capture_complete`** — the headline: a capture yields what was sent while it was open, all of
  it and nothing else; every scope that was open before has received the same and is still open; and
  scopes that are added change nothing.
-/

namespace RecordGuard

/-! ## The channel of diagnostics -/

/-- The diagnostic that an event carries on the channel of diagnostics. -/
def Event.diagnostic? : Event → Option Diagnostic
  | .diagnosed d => some d
  | _ => none

/-- An ordinary event carries no diagnostic. -/
theorem Event.diagnostic?_eq_none {e : Event} (he : e.isDiagnostic = false) :
    e.diagnostic? = none := by
  cases e with
  | diagnosed d => exact absurd he (by simp [Event.isDiagnostic])
  | _ => rfl

/-- The diagnostics in a log, oldest first. -/
def diagnosed (log : Array Event) : List Diagnostic := log.toList.filterMap Event.diagnostic?

/-- A step puts on the channel just what it delivers. -/
theorem Step.filterMap_logs (settings : Settings) (x : Step) :
    (x.logs settings).filterMap Event.diagnostic? = x.sends settings := by
  cases x with
  | did effect =>
    -- an event that is reported is no diagnostic, so sending is all there is
    cases effect with
    | emit d => by_cases h : settings.enabled <;> simp [Step.logs, Step.sends, Event.diagnostic?, h]
    | report e ordinary => simp [Step.logs, Step.sends, Event.diagnostic?_eq_none ordinary]
    | configure other => rfl
    | mark m => rfl
  | asked guard v => rfl
  | answered guard verdict => cases verdict <;> rfl

/-- **The channel and the scopes agree.** -/
theorem diagnosed_logged (settings : Settings) (h : List Step) :
    (logged settings h).filterMap Event.diagnostic? = sent settings h := by
  induction h generalizing settings with
  | nil => rfl
  | cons x rest ih => rw [logged, sent, List.filterMap_append, Step.filterMap_logs, ih]

/-! ## Open scopes -/

/-- The same scopes are open after as before, and each of them has received these diagnostics. -/
def Session.Received (s t : Session) (ds : List Diagnostic) : Prop :=
  t.scopes = s.scopes.map (· ++ ds.toArray)

/-- A run delivers what its history sends to every scope that is open, and leaves all of them open. -/
theorem Program.received (p : Program) (s : Session) :
    s.Received (p.run s).2 (sent s.settings (p.history s)) := by
  rw [Session.Received, p.run_session, Session.replay_eq]

/-! ## Parts in scopes of their own -/

namespace Program

/-- A program in a scope of its own, of which nothing is made. -/
def inScope (p : Program) : Program := .capture p fun verdict _ => .answer verdict

theorem run_inScope (p : Program) (s : Session) : p.inScope.run s = p.run s := by
  rw [inScope, p.traced.run_capture]
  rcases p.run s with ⟨_ | verdict, t⟩ <;> rfl

theorem history_inScope (p : Program) (s : Session) : p.inScope.history s = p.history s := by
  rw [inScope, p.traced.history_capture]
  rcases p.run s with ⟨_ | verdict, t⟩ <;> exact List.append_nil _

/-- One program is another of which any number of parts, at any depth, are run in scopes of their
own. A part is all that comes up to some verdict: `p` is a part of `p.bind rest`. -/
inductive Enclosed : Program → Program → Prop where
  | answer (verdict : Bool) : Enclosed (.answer verdict) (.answer verdict)
  | panic : Enclosed .panic .panic
  | perform {next next' : Unit → Program} (effect : Effect)
      (hnext : ∀ u, Enclosed (next u) (next' u)) :
      Enclosed (.perform effect next) (.perform effect next')
  | settings {next next' : Settings → Program} (hnext : ∀ s, Enclosed (next s) (next' s)) :
      Enclosed (.settings next) (.settings next')
  | marks {next next' : Array Mark → Program} (hnext : ∀ m, Enclosed (next m) (next' m)) :
      Enclosed (.marks next) (.marks next')
  | capture {body body' : Program} {next next' : Bool → List Diagnostic → Program}
      (hbody : Enclosed body body') (hnext : ∀ b ds, Enclosed (next b ds) (next' b ds)) :
      Enclosed (.capture body next) (.capture body' next')
  | attempt {body body' : Program} {next next' : Option Bool → Program}
      (hbody : Enclosed body body') (hnext : ∀ r, Enclosed (next r) (next' r)) :
      Enclosed (.attempt body next) (.attempt body' next')
  | ask {body body' : Program} {next next' : Bool → Program} (guard : String) (v : Value)
      (hbody : Enclosed body body') (hnext : ∀ b, Enclosed (next b) (next' b)) :
      Enclosed (.ask guard v body next) (.ask guard v body' next')
  | part {p p' : Program} {rest rest' : Bool → Program}
      (hpart : Enclosed p p') (hrest : ∀ b, Enclosed (rest b) (rest' b)) :
      Enclosed (p.bind rest) (p'.inScope.bind rest')

/-- **Added scopes change nothing.** Neither the run nor its history differs. -/
theorem Enclosed.same {p q : Program} (hpq : p.Enclosed q) (s : Session) :
    q.run s = p.run s ∧ q.history s = p.history s := by
  -- a part that runs in a scope of its own runs as it would without; the rest is congruence
  induction hpq generalizing s with
  | answer verdict => exact ⟨rfl, rfl⟩
  | panic => exact ⟨rfl, rfl⟩
  | perform effect _ ih =>
    obtain ⟨hrun, hhistory⟩ := ih () (s.perform effect)
    exact ⟨hrun, congrArg (Step.did effect :: ·) hhistory⟩
  | settings _ ih => exact ih s.settings s
  | marks _ ih => exact ih s.marks s
  | @capture body body' next next' _ _ ihBody ihNext =>
    rw [body.traced.run_capture, body'.traced.run_capture, body.traced.history_capture,
      body'.traced.history_capture, (ihBody s).1, (ihBody s).2]
    -- on both sides the body unwinds, or on both what follows gets the same diagnostics
    cases (body.run s).1 with
    | none => exact ⟨rfl, rfl⟩
    | some verdict =>
      obtain ⟨hrun, hhistory⟩ := ihNext verdict (sent s.settings (body.history s)) (body.run s).2
      exact ⟨hrun, congrArg (_ ++ ·) hhistory⟩
  | attempt _ _ ihBody ihNext =>
    rw [run_attempt, run_attempt, history_attempt, history_attempt, (ihBody s).1, (ihBody s).2]
    obtain ⟨hrun, hhistory⟩ := ihNext _ _
    exact ⟨hrun, congrArg (_ ++ ·) hhistory⟩
  | ask guard v _ _ ihBody ihNext =>
    rw [run_ask, run_ask, history_ask, history_ask, (ihBody s).1, (ihBody s).2]
    obtain ⟨hrun, hhistory⟩ := ihNext _ _
    exact ⟨hrun, congrArg (_ ++ _ :: ·) hhistory⟩
  | @part p p' rest rest' _ _ ihPart ihRest =>
    rw [run_bind, run_bind, history_bind, history_bind, run_inScope, history_inScope,
      (ihPart s).1, (ihPart s).2]
    cases (p.run s).1 with
    | none => exact ⟨rfl, rfl⟩
    | some verdict =>
      obtain ⟨hrun, hhistory⟩ := ihRest verdict (p.run s).2
      exact ⟨hrun, congrArg (_ ++ ·) hhistory⟩

end Program

/-! ## The headline

The program is any program, and so is the session: in particular the program may be the body of a
capture somewhere inside another, and the session the one in which that capture opens. Its history
holds what happens in the captures inside it and in the bodies that unwound and were stopped. -/

/-- **Captures are complete.** Let `ds` be what a program sends, in order, while diagnostics are on.
A capture of the program yields `ds` wherever the program comes to a verdict, and leaves the session
that the program alone leaves. After the program, after a capture of it, after stopping it from
unwinding and after the check of a guard the scopes open before are open, no others, and each has
received what was sent in between. The channel of diagnostics has received the same. And with further
parts run in scopes of their own it is the same program. -/
theorem capture_complete (p : Program) (s : Session) :
    let ds := sent s.settings (p.history s)
    Run.capture p.run s = ((p.run s).1.map fun verdict => (verdict, ds), (p.run s).2) ∧
    s.Received (p.run s).2 ds ∧
    s.Received (Run.capture p.run s).2 ds ∧
    s.Received (Run.attempt p.run s).2 ds ∧
    (∀ (g : Guard) (v : Value),
      s.Received (g.verdict v s).2 (sent s.settings ((g.check v).history s))) ∧
    diagnosed (p.run s).2.log = diagnosed s.log ++ ds ∧
    ∀ q, p.Enclosed q → q.run = p.run ∧ q.history = p.history := by
  intro ds
  have hcapture := p.traced.collects s
  have hscopes : s.Received (p.run s).2 ds := p.received s
  have hlog : diagnosed (p.run s).2.log = diagnosed s.log ++ ds := by
    rw [p.run_session, Session.replay_eq]
    simp [diagnosed, diagnosed_logged, ds]
  refine ⟨hcapture, hscopes, ?_, hscopes, fun g v => (g.check v).received s, hlog, ?_⟩
  · rw [hcapture]
    exact hscopes
  · intro q hq
    exact ⟨funext fun t => (hq.same t).1, funext fun t => (hq.same t).2⟩

/-- A part that sends a diagnostic and unwinds, is stopped, and is followed by another diagnostic
when diagnostics are off: the capture has the first one, and a scope around the part is not
noticed. -/
theorem capture_complete_stopped :
    let stopped : Program :=
      .attempt (.perform (.emit .memberFailed) fun _ => .panic) fun _ => .answer true
    let rest : Bool → Program := fun _ =>
      .perform (.configure ⟨false, false⟩) fun _ => .emitThen (.missing "User" "age") true
    (stopped.bind rest).Enclosed (stopped.inScope.bind rest) ∧
    (stopped.inScope.bind rest).run = (stopped.bind rest).run ∧
    (Run.capture (stopped.bind rest).run (.start .standard)).1 = some (true, [.memberFailed]) := by
  intro stopped rest
  have henclosed : (stopped.bind rest).Enclosed (stopped.inScope.bind rest) :=
    .part (.attempt (.perform _ fun _ => .panic) fun _ => .answer true)
      fun _ => .perform _ fun _ => .perform _ fun _ => .answer true
  have hcomplete := capture_complete (stopped.bind rest) (.start .standard)
  refine ⟨henclosed, (hcomplete.2.2.2.2.2.2 _ henclosed).1, ?_⟩
  rw [hcomplete.1]
  rfl

end RecordGuard
