import RecordGuard.Diagnostics.Program

/-!
# What a run does

A program is a tree of all it might do; a run takes one path through it. This module gives that path
a name and shows that it is all there is to a run.

## The architecture

* **`Step`** — a single thing that happens: an effect is performed, the predicate of a guard is put
  to a value, or it comes back. `Step.sends`, `Step.logs`, `Step.marks` and `Step.settingsAfter` say
  what each adds to a session.
* **`Program.history`** — the steps of a run, in order. Where a body is captured or stopped from
  unwinding, its steps stand in the history all the same.
* **`Session.replay`** — the steps performed one after the other, with no scope opened or closed.
* **`Session.Alike`** — sessions that a program cannot tell apart: it sees the settings and the
  marks, never the log and never the stack of scopes.
* **`Program.traced`** — the transport: a run leaves the session that replaying its history leaves,
  and alike sessions give the same history and the same verdict. So the stack discipline of
  `Run.capture` is dealt with once, here (`Program.Traced.collects`).
-/

namespace RecordGuard

theorem Run.bind_eq {α β : Type} {c : Run α} {next : α → Run β} {s s' : Session} {a : α}
    (h : c s = (some a, s')) : (c >>= next) s = next a s' := by
  show Run.bind c next s = _
  rw [Run.bind, h]

/-! ## Steps -/

/-- A single thing that happens in the course of a run. -/
inductive Step where
  | did (effect : Effect)
  /-- The predicate of a guard was put to a value. -/
  | asked (guard : String) (value : Value)
  /-- It came back with a verdict, or it unwound and was contained. -/
  | answered (guard : String) (verdict : Option Bool)

namespace Step

/-- The settings in effect after a step. -/
def settingsAfter (settings : Settings) : Step → Settings
  | did (.configure other) => other
  | _ => settings

/-- The diagnostics that a step delivers under the settings in effect. -/
def sends (settings : Settings) : Step → List Diagnostic
  | did (.emit d) => if settings.enabled then [d] else []
  | _ => []

/-- The events that a step reports under the settings in effect. -/
def logs (settings : Settings) : Step → List Event
  | did (.emit d) => if settings.enabled then [.diagnosed d] else []
  | did (.report e _) => [e]
  | answered guard none => [.predicatePanicked guard]
  | _ => []

/-- The marks that a step leaves. -/
def marks : Step → List Mark
  | did (.mark m) => [m]
  | _ => []

end Step

/-- The settings in effect after a history. -/
def settingsAfter (settings : Settings) (h : List Step) : Settings :=
  h.foldl Step.settingsAfter settings

/-- The diagnostics that a history delivers: those that were sent while diagnostics were on. -/
def sent (settings : Settings) : List Step → List Diagnostic
  | [] => []
  | x :: rest => x.sends settings ++ sent (x.settingsAfter settings) rest

/-- The events that a history reports. -/
def logged (settings : Settings) : List Step → List Event
  | [] => []
  | x :: rest => x.logs settings ++ logged (x.settingsAfter settings) rest

@[simp] theorem settingsAfter_nil (settings : Settings) : settingsAfter settings [] = settings := rfl

@[simp] theorem settingsAfter_cons (settings : Settings) (x : Step) (h : List Step) :
    settingsAfter settings (x :: h) = settingsAfter (x.settingsAfter settings) h := rfl

/-- What is sent in two histories is what the first one sends and what the second one sends under the
settings that the first one leaves. -/
theorem sent_append (settings : Settings) (h h' : List Step) :
    sent settings (h ++ h') = sent settings h ++ sent (settingsAfter settings h) h' := by
  induction h generalizing settings with
  | nil => rfl
  | cons x rest ih => simp [sent, ih]

/-! ## Replaying

Replaying a history performs its steps on a session and touches no scope but to deliver: whatever is
open receives what is sent, and stays open. -/

/-- What a step makes of a session. -/
def Session.follow (s : Session) : Step → Session
  | .did effect => s.perform effect
  | .answered guard none => s.report (.predicatePanicked guard)
  | _ => s

/-- What a history makes of a session. -/
def Session.replay (s : Session) (h : List Step) : Session := h.foldl Session.follow s

theorem Session.replay_cons (s : Session) (x : Step) (h : List Step) :
    s.replay (x :: h) = (s.follow x).replay h := rfl

theorem Session.replay_append (s : Session) (h h' : List Step) :
    s.replay (h ++ h') = (s.replay h).replay h' :=
  List.foldl_append

/-- **A single step, component by component.** This is the only place at which the effects are looked
at one by one; all that is said of histories follows from it. -/
theorem Session.follow_eq (s : Session) (x : Step) :
    s.follow x =
      ⟨x.settingsAfter s.settings, s.scopes.map (· ++ (x.sends s.settings).toArray),
        s.log ++ (x.logs s.settings).toArray, s.marks ++ x.marks.toArray⟩ := by
  obtain ⟨settings, scopes, log, marks⟩ := s
  cases x with
  | did effect =>
    cases effect with
    | emit d =>
      -- a diagnostic is delivered and logged if diagnostics are on, and else not even looked at
      by_cases h : settings.enabled
      · simp [Session.follow, Session.perform, Session.emit, Session.report, Step.settingsAfter,
          Step.sends, Step.logs, Step.marks, h]
      · simp [Session.follow, Session.perform, Session.emit, Step.settingsAfter, Step.sends,
          Step.logs, Step.marks, h]
    | configure other =>
      simp [Session.follow, Session.perform, Session.configure, Step.settingsAfter, Step.sends,
        Step.logs, Step.marks]
    | report e ordinary =>
      simp [Session.follow, Session.perform, Session.report, Step.settingsAfter, Step.sends,
        Step.logs, Step.marks]
    | mark m =>
      simp [Session.follow, Session.perform, Session.mark, Step.settingsAfter, Step.sends,
        Step.logs, Step.marks]
  | asked guard v => simp [Session.follow, Step.settingsAfter, Step.sends, Step.logs, Step.marks]
  | answered guard verdict =>
    cases verdict with
    | none =>
      simp [Session.follow, Session.report, Step.settingsAfter, Step.sends, Step.logs, Step.marks]
    | some b => simp [Session.follow, Step.settingsAfter, Step.sends, Step.logs, Step.marks]

/-- **A history, component by component.** The settings are those last put into effect; every scope
that is open has received what was sent; the log and the marks have grown. -/
theorem Session.replay_eq (s : Session) (h : List Step) :
    s.replay h =
      ⟨settingsAfter s.settings h, s.scopes.map (· ++ (sent s.settings h).toArray),
        s.log ++ (logged s.settings h).toArray, s.marks ++ (h.flatMap Step.marks).toArray⟩ := by
  induction h generalizing s with
  | nil => simp [Session.replay, sent, logged]
  | cons x rest ih =>
    rw [Session.replay_cons, ih, Session.follow_eq]
    simp [sent, logged, Function.comp_def]

/-! ## Alike sessions

A program reads the settings and the marks and nothing else, so two sessions that agree on these
look the same to it, whatever their logs and whatever scopes stand open. -/

/-- Sessions that a program cannot tell apart. -/
structure Session.Alike (s t : Session) : Prop where
  settings : s.settings = t.settings
  marks : s.marks = t.marks

namespace Session.Alike

theorem refl (s : Session) : s.Alike s := ⟨rfl, rfl⟩

theorem symm {s t : Session} (hst : s.Alike t) : t.Alike s := ⟨hst.settings.symm, hst.marks.symm⟩

theorem trans {s t u : Session} (hst : s.Alike t) (htu : t.Alike u) : s.Alike u :=
  ⟨hst.settings.trans htu.settings, hst.marks.trans htu.marks⟩

/-- **Alike sessions stay alike**, whatever is replayed on both. -/
theorem replay {s t : Session} (hst : s.Alike t) (h : List Step) :
    (s.replay h).Alike (t.replay h) := by
  rw [Session.replay_eq, Session.replay_eq]
  exact ⟨by rw [hst.settings], by rw [hst.marks]⟩

theorem openScope (s : Session) : s.Alike s.openScope.2 := ⟨rfl, rfl⟩

theorem report (s : Session) (e : Event) : (s.report e).Alike s := ⟨rfl, rfl⟩

/-- Sending a diagnostic does not show, be it delivered or not. -/
theorem emit (s : Session) (d : Diagnostic) : (s.emit d).Alike s := by
  unfold Session.emit
  split
  · exact ⟨rfl, rfl⟩
  · exact .refl s

end Session.Alike

/-! ## The history of a run -/

/-- The steps of a run, in order, as far as it comes. The steps of a body stand in it whether the
body is captured, stopped from unwinding, or the predicate of a guard. -/
def Program.history : Program → Session → List Step
  | answer _, _ => []
  | panic, _ => []
  | perform effect next, s => .did effect :: (next ()).history (s.perform effect)
  | settings next, s => (next s.settings).history s
  | marks next, s => (next s.marks).history s
  | capture body next, s =>
    body.history s.openScope.2 ++
      match Run.capture body.run s with
      | (some (verdict, ds), s) => (next verdict ds).history s
      | (none, _) => []
  | attempt body next, s =>
    body.history s ++ (next (body.run s).1).history (body.run s).2
  | ask guard v body next, s =>
    .asked guard v :: body.history s ++
      .answered guard (body.run s).1 ::
        (next ((body.run s).1.getD false)).history (Run.contain guard body.run s).2

/-- A run comes down to its history: replaying that leaves the same session, and where sessions are
alike neither the history nor the verdict differs. -/
structure Program.Traced (p : Program) : Prop where
  run_session (s : Session) : (p.run s).2 = s.replay (p.history s)
  verdict_alike {s t : Session} (hst : s.Alike t) : (p.run s).1 = (p.run t).1
  history_alike {s t : Session} (hst : s.Alike t) : p.history s = p.history t

theorem Program.Traced.run_alike {p : Program} (hp : p.Traced) {s t : Session} (hst : s.Alike t) :
    ((p.run s).2).Alike (p.run t).2 := by
  rw [hp.run_session, hp.run_session, hp.history_alike hst]
  exact hst.replay _

/-! ## Capturing

`Run.capture` works on the stack by position: it pushes an empty scope, and afterwards takes what
stands at that position and cuts the stack off there. Between the two the body may open and close
scopes of its own; but its run leaves the session that a replay leaves, and a replay keeps the number
of scopes. So the position still holds the scope that was opened, it has received what the body sent,
and below it stands the old stack, each scope of which has received the same. -/

/-- What is replayed with one more scope open is delivered into that scope as well, and changes
nothing else. -/
theorem Session.replay_openScope (s : Session) (h : List Step) :
    s.openScope.2.replay h =
      { s.replay h with scopes := (s.replay h).scopes ++ [(sent s.settings h).toArray] } := by
  rw [Session.replay_eq, Session.replay_eq]
  simp [Session.openScope]

theorem Session.length_scopes_replay (s : Session) (h : List Step) :
    (s.replay h).scopes.length = s.scopes.length := by
  rw [Session.replay_eq, List.length_map]

/-- **A capture, given that its body is traced.** It runs the body and yields what the body's history
delivers; the session is the one that the body alone would have left. -/
theorem Program.Traced.collects {body : Program} (hb : body.Traced) (s : Session) :
    Run.capture body.run s =
      ((body.run s).1.map fun verdict => (verdict, sent s.settings (body.history s)),
        (body.run s).2) := by
  -- the body does not see the scope that is opened around it
  have hverdict : (body.run s.openScope.2).1 = (body.run s).1 :=
    (hb.verdict_alike (.openScope s)).symm
  -- what it leaves is the session without the scope, and the scope with what was sent
  have hsession : (body.run s.openScope.2).2 =
      { (body.run s).2 with
        scopes := (body.run s).2.scopes ++ [(sent s.settings (body.history s)).toArray] } := by
    rw [hb.run_session, hb.run_session, ← hb.history_alike (.openScope s),
      Session.replay_openScope]
  -- the scope stands where the stack ended before
  have hlength : (body.run s).2.scopes.length = s.scopes.length := by
    rw [hb.run_session, Session.length_scopes_replay]
  -- both ways out of the body cut the stack off at the position of the scope
  have hdrop : ∀ x, ((body.run s).2.scopes ++ [x]).take s.scopes.length = (body.run s).2.scopes := by
    intro x
    rw [← hlength, List.take_left]
  have hopen : s.openScope = (s.scopes.length, s.openScope.2) := rfl
  unfold Run.capture
  rw [hopen]
  rcases hrun : body.run s.openScope.2 with ⟨r, s'⟩
  rw [hrun] at hverdict hsession
  cases r with
  | none =>
    simp only [hrun, ← hverdict, Option.map_none]
    rw [show s' = _ from hsession]
    simp [Session.dropScope, hdrop]
  | some verdict =>
    simp only [hrun, ← hverdict, Option.map_some]
    rw [show s' = _ from hsession]
    simp [Session.takeScope, Session.dropScope, ← hlength]

/-! ## Every program is traced

The three constructs that run a body go on from the session which the body left. What they go on
with is the body's verdict; for a capture that is nothing at all if the body unwound. -/

namespace Program

/-- A run of a capture goes on from the session that the body leaves, with what the body sent; if the
body unwinds, so does the capture. -/
theorem Traced.run_capture {body : Program} (hb : body.Traced)
    (next : Bool → List Diagnostic → Program) (s : Session) :
    (capture body next).run s =
      match (body.run s).1 with
      | some verdict => (next verdict (sent s.settings (body.history s))).run (body.run s).2
      | none => (none, (body.run s).2) := by
  show Run.bind (Run.capture body.run) _ s = _
  unfold Run.bind
  rw [hb.collects s]
  cases (body.run s).1 <;> rfl

/-- The history of a capture, by the body's own: the scope around the body leaves no trace in it. -/
theorem Traced.history_capture {body : Program} (hb : body.Traced)
    (next : Bool → List Diagnostic → Program) (s : Session) :
    (capture body next).history s =
      body.history s ++
        match (body.run s).1 with
        | some verdict => (next verdict (sent s.settings (body.history s))).history (body.run s).2
        | none => [] := by
  rw [history, hb.collects s, ← hb.history_alike (.openScope s)]
  cases (body.run s).1 <;> rfl

theorem run_attempt (body : Program) (next : Option Bool → Program) (s : Session) :
    (attempt body next).run s = (next (body.run s).1).run (body.run s).2 := rfl

theorem history_attempt (body : Program) (next : Option Bool → Program) (s : Session) :
    (attempt body next).history s =
      body.history s ++ (next (body.run s).1).history (body.run s).2 := rfl

/-- What containing a body leaves to do: it is answered for, and the verdict is there. -/
theorem contain_run (guard : String) (body : Program) (s : Session) :
    Run.contain guard body.run s =
      (some ((body.run s).1.getD false), (body.run s).2.follow (.answered guard (body.run s).1)) := by
  unfold Run.contain Run.bind Run.attempt
  rcases body.run s with ⟨_ | verdict, s'⟩ <;> rfl

/-- After the predicate of a guard the program goes on with its verdict; a predicate that unwound
counts as a rejection. -/
theorem run_ask (guard : String) (v : Value) (body : Program) (next : Bool → Program)
    (s : Session) :
    (ask guard v body next).run s =
      (next ((body.run s).1.getD false)).run
        ((body.run s).2.follow (.answered guard (body.run s).1)) := by
  show Run.bind (Run.contain guard body.run) _ s = _
  unfold Run.bind
  rw [contain_run]

theorem history_ask (guard : String) (v : Value) (body : Program) (next : Bool → Program)
    (s : Session) :
    (ask guard v body next).history s =
      .asked guard v :: body.history s ++
        .answered guard (body.run s).1 ::
          (next ((body.run s).1.getD false)).history
            ((body.run s).2.follow (.answered guard (body.run s).1)) := by
  rw [history, contain_run]

/-- **Every program is traced.** -/
theorem traced (p : Program) : p.Traced := by
  -- captures are the only case in which the stack moves, and `Traced.collects` has dealt with that;
  -- in the others the session goes from step to step
  induction p with
  | answer verdict => exact ⟨fun _ => rfl, fun _ => rfl, fun _ => rfl⟩
  | panic => exact ⟨fun _ => rfl, fun _ => rfl, fun _ => rfl⟩
  | perform effect next ih =>
    refine ⟨fun s => (ih ()).run_session (s.perform effect), fun hst => ?_, fun hst => ?_⟩
    · exact (ih ()).verdict_alike (hst.replay [.did effect])
    · exact congrArg (Step.did effect :: ·) ((ih ()).history_alike (hst.replay [.did effect]))
  | settings next ih =>
    refine ⟨fun s => (ih s.settings).run_session s, fun hst => ?_, fun hst => ?_⟩
    · simp only [run, hst.settings]
      exact (ih _).verdict_alike hst
    · simp only [history, hst.settings]
      exact (ih _).history_alike hst
  | marks next ih =>
    refine ⟨fun s => (ih s.marks).run_session s, fun hst => ?_, fun hst => ?_⟩
    · simp only [run, hst.marks]
      exact (ih _).verdict_alike hst
    · simp only [history, hst.marks]
      exact (ih _).history_alike hst
  | capture body next ihBody ihNext =>
    refine ⟨fun s => ?_, fun {s t} hst => ?_, fun {s t} hst => ?_⟩
    · rw [ihBody.run_capture, ihBody.history_capture, Session.replay_append, ← ihBody.run_session]
      cases (body.run s).1 with
      | none => rfl
      | some verdict => exact (ihNext verdict _).run_session _
    · rw [ihBody.run_capture, ihBody.run_capture, ihBody.verdict_alike hst,
        ihBody.history_alike hst, hst.settings]
      cases (body.run t).1 with
      | none => rfl
      | some verdict => exact (ihNext verdict _).verdict_alike (ihBody.run_alike hst)
    · rw [ihBody.history_capture, ihBody.history_capture, ihBody.verdict_alike hst,
        ihBody.history_alike hst, hst.settings]
      cases (body.run t).1 with
      | none => rfl
      | some verdict =>
        exact congrArg (_ ++ ·) ((ihNext verdict _).history_alike (ihBody.run_alike hst))
  | attempt body next ihBody ihNext =>
    refine ⟨fun s => ?_, fun {s t} hst => ?_, fun {s t} hst => ?_⟩
    · rw [run_attempt, history_attempt, Session.replay_append, ← ihBody.run_session]
      exact (ihNext _).run_session _
    · rw [run_attempt, run_attempt, ihBody.verdict_alike hst]
      exact (ihNext _).verdict_alike (ihBody.run_alike hst)
    · rw [history_attempt, history_attempt, ihBody.verdict_alike hst, ihBody.history_alike hst]
      exact congrArg (_ ++ ·) ((ihNext _).history_alike (ihBody.run_alike hst))
  | ask guard v body next ihBody ihNext =>
    refine ⟨fun s => ?_, fun {s t} hst => ?_, fun {s t} hst => ?_⟩
    · rw [run_ask, history_ask, Session.replay_append, Session.replay_cons, Session.replay_cons]
      show _ = (((s.replay (body.history s)).follow _).replay _)
      rw [← ihBody.run_session]
      exact (ihNext _).run_session _
    · rw [run_ask, run_ask, ihBody.verdict_alike hst]
      exact (ihNext _).verdict_alike ((ihBody.run_alike hst).replay [.answered guard _])
    · rw [history_ask, history_ask, ihBody.verdict_alike hst, ihBody.history_alike hst]
      exact congrArg (_ ++ _ :: ·)
        ((ihNext _).history_alike ((ihBody.run_alike hst).replay [.answered guard _]))

/-! ## What follows for every run -/

theorem run_session (p : Program) (s : Session) : (p.run s).2 = s.replay (p.history s) :=
  p.traced.run_session s

theorem run_alike (p : Program) {s t : Session} (hst : s.Alike t) :
    ((p.run s).2).Alike (p.run t).2 :=
  p.traced.run_alike hst

theorem verdict_alike (p : Program) {s t : Session} (hst : s.Alike t) :
    (p.run s).1 = (p.run t).1 :=
  p.traced.verdict_alike hst

theorem history_alike (p : Program) {s t : Session} (hst : s.Alike t) :
    p.history s = p.history t :=
  p.traced.history_alike hst

/-- **The history of two programs in a row** is that of the first and, if it comes to a verdict, that
of the second from there on. -/
theorem history_bind (p : Program) (next : Bool → Program) (s : Session) :
    (p.bind next).history s =
      p.history s ++
        match (p.run s).1 with
        | some verdict => (next verdict).history (p.run s).2
        | none => [] := by
  -- `bind` goes into the continuation, so each case is the hypothesis behind the same first steps
  induction p generalizing s with
  | answer verdict => rfl
  | panic => rfl
  | perform effect rest ih => exact congrArg (Step.did effect :: ·) (ih () (s.perform effect))
  | settings rest ih => exact ih s.settings s
  | marks rest ih => exact ih s.marks s
  | capture body rest _ ih =>
    rw [bind, body.traced.history_capture, body.traced.history_capture, body.traced.run_capture]
    cases (body.run s).1 with
    | none => simp
    | some verdict => simp [ih]
  | attempt body rest _ ih =>
    rw [bind, history_attempt, history_attempt, run_attempt, ih]
    simp
  | ask guard v body rest _ ih =>
    rw [bind, history_ask, history_ask, run_ask, ih]
    simp

/-- The second of two programs in a row runs in the session that the first one leaves, if the first
one comes to a verdict. By the same induction as for the history. -/
theorem run_bind (p : Program) (next : Bool → Program) (s : Session) :
    (p.bind next).run s =
      match (p.run s).1 with
      | some verdict => (next verdict).run (p.run s).2
      | none => (none, (p.run s).2) := by
  induction p generalizing s with
  | answer verdict => rfl
  | panic => rfl
  | perform effect rest ih => exact ih () (s.perform effect)
  | settings rest ih => exact ih s.settings s
  | marks rest ih => exact ih s.marks s
  | capture body rest _ ih =>
    rw [bind, body.traced.run_capture, body.traced.run_capture]
    cases (body.run s).1 with
    | none => rfl
    | some verdict => exact ih _ _ _
  | attempt body rest _ ih => exact ih _ _
  | ask guard v body rest _ ih =>
    rw [bind, run_ask, run_ask]
    exact ih _ _

end Program

end RecordGuard
