import RecordGuard.Proofs.Program.History

/-!
# Calm programs

A program that unwinds can be replaced by one that takes the same steps and rejects instead. This
module says what that means for programs and shows that nothing they are put together with can tell
the difference; only the log can.

## The architecture

* **`Step.calm`**, **`Program.Calms`** — the calm version of a step answers with a rejection where
  the step tells of unwinding; a program calms another if it takes the calm versions of its steps and
  comes to its verdict, a rejection if it comes to none.
* **`Calms.ask`** — a guard that is asked absorbs what unwinds, so its calm version comes to the same
  verdict (`Program.CalmsAnswer`).
* **`Program.calmed`**, **`Program.calms_calmed`** — every program has a calm version.
* **`panics`**, **`PanicsReported`**, **`Nested`** — the guards whose predicates unwound, the reports
  of that, and which guard answers at which time.
-/

namespace RecordGuard

/-! ## Calm steps -/

/-- A step as it is when a predicate that unwound had rejected instead. -/
def Step.calm : Step → Step
  | .answered guard none => .answered guard (some false)
  | x => x

theorem Step.settingsAfter_calm (settings : Settings) (x : Step) :
    x.calm.settingsAfter settings = x.settingsAfter settings := by
  rcases x with _ | _ | ⟨_, _ | _⟩ <;> rfl

theorem Step.sends_calm (settings : Settings) (x : Step) :
    x.calm.sends settings = x.sends settings := by
  rcases x with _ | _ | ⟨_, _ | _⟩ <;> rfl

theorem Step.marks_calm (x : Step) : x.calm.marks = x.marks := by
  rcases x with _ | _ | ⟨_, _ | _⟩ <;> rfl

/-- A calm history leaves the same settings: how a predicate came back has no effect on them. -/
theorem settingsAfter_calm (settings : Settings) (h : List Step) :
    settingsAfter settings (h.map Step.calm) = settingsAfter settings h := by
  induction h generalizing settings with
  | nil => rfl
  | cons x rest ih =>
    rw [List.map_cons, settingsAfter_cons, settingsAfter_cons, Step.settingsAfter_calm, ih]

/-- It sends the same diagnostics. -/
theorem sent_calm (settings : Settings) (h : List Step) :
    sent settings (h.map Step.calm) = sent settings h := by
  induction h generalizing settings with
  | nil => rfl
  | cons x rest ih => rw [List.map_cons, sent, sent, Step.sends_calm, Step.settingsAfter_calm, ih]

/-- It leaves the same marks. -/
theorem marks_calm (h : List Step) :
    (h.map Step.calm).flatMap Step.marks = h.flatMap Step.marks := by
  induction h with
  | nil => rfl
  | cons x rest ih => rw [List.map_cons, List.flatMap_cons, List.flatMap_cons, Step.marks_calm, ih]

/-- **Replaying a calm history leaves a session that is like the other one**: only the log shows what
unwound. -/
theorem Session.alike_replay_calm (s : Session) (h : List Step) :
    (s.replay (h.map Step.calm)).Alike (s.replay h) := by
  rw [Session.replay_eq, Session.replay_eq]
  exact ⟨settingsAfter_calm s.settings h, by rw [marks_calm]⟩

/-! ## Calm programs -/

namespace Program

/-- The program comes to a verdict from every session. -/
def Answers (p : Program) : Prop := ∀ s, ∃ verdict, (p.run s).1 = some verdict

/-- One program does what another does and rejects where the other unwinds; and so does every guard
that is asked on the way. -/
structure Calms (q p : Program) : Prop where
  verdict (s : Session) : (q.run s).1 = some ((p.run s).1.getD false)
  history (s : Session) : q.history s = (p.history s).map Step.calm

theorem alike_of_history_calm {q p : Program} {s : Session}
    (h : q.history s = (p.history s).map Step.calm) : ((q.run s).2).Alike (p.run s).2 := by
  rw [q.run_session, p.run_session, h]
  exact s.alike_replay_calm _

theorem calms_answer (verdict : Bool) : (answer verdict).Calms (answer verdict) :=
  ⟨fun _ => rfl, fun _ => rfl⟩

theorem Calms.getD_verdict {q p : Program} (hqp : q.Calms p) (s : Session) :
    (q.run s).1.getD false = (p.run s).1.getD false := by
  rw [hqp.verdict, Option.getD_some]

theorem Calms.answered {q p : Program} (hqp : q.Calms p) (guard : String) (s : Session) :
    (Step.answered guard (p.run s).1).calm = .answered guard (q.run s).1 := by
  rw [hqp.verdict]
  cases (p.run s).1 <;> rfl

/-- Once a guard has come back, the sessions are alike on both sides. -/
theorem Calms.follow_alike {q p : Program} (hqp : q.Calms p) (guard : String) (s : Session) :
    ((q.run s).2.follow (.answered guard (q.run s).1)).Alike
      ((p.run s).2.follow (.answered guard (p.run s).1)) := by
  -- the answer leaves at most a report, which no program sees
  have hsame : ∀ (t : Session) (r r' : Option Bool),
      (t.follow (.answered guard r)).Alike (t.follow (.answered guard r')) := by
    intro t r r'
    cases r <;> cases r' <;> exact ⟨rfl, rfl⟩
  exact ((alike_of_history_calm (hqp.history s)).replay [.answered guard _]).trans (hsame _ _ _)

/-- A guard that is asked absorbs what unwinds: its predicate need not come to a verdict. -/
theorem Calms.ask {q p : Program} {next' next : Bool → Program} (guard : String) (v : Value)
    (hqp : q.Calms p) (hnext : ∀ b, (next' b).Calms (next b)) :
    (Program.ask guard v q next').Calms (Program.ask guard v p next) := by
  refine ⟨fun s => ?_, fun s => ?_⟩
  · rw [run_ask, run_ask, hqp.getD_verdict]
    exact (verdict_alike _ (hqp.follow_alike guard s)).trans ((hnext _).verdict _)
  · rw [history_ask, history_ask, hqp.getD_verdict, hqp.history, List.map_append, List.map_cons,
      List.map_cons, hqp.answered]
    exact congrArg (_ ++ _ :: ·)
      ((history_alike _ (hqp.follow_alike guard s)).trans ((hnext _).history _))

/-- A guard that is asked answers in any case, so only what follows has to. -/
theorem Answers.ask {p : Program} {next : Bool → Program} (guard : String) (v : Value)
    (hnext : ∀ b, (next b).Answers) : (Program.ask guard v p next).Answers := by
  intro s
  rw [run_ask]
  exact hnext _ _

theorem answers_answer (verdict : Bool) : (answer verdict).Answers := fun _ => ⟨verdict, rfl⟩

/-- Two programs: the second comes to a verdict, and the first is a calm version of it. -/
structure CalmsAnswer (q p : Program) : Prop where
  calms : q.Calms p
  answers : p.Answers

end Program

/-! ## Every program has a calm version

Inside the program the guards that are asked get calm predicates; the program itself is stopped from
unwinding, and rejects. -/

namespace Program

/-- The program with calm predicates for the guards that it asks. -/
def hushed : Program → Program
  | answer verdict => answer verdict
  | panic => panic
  | perform effect next => perform effect fun u => (next u).hushed
  | settings next => settings fun s => (next s).hushed
  | marks next => marks fun m => (next m).hushed
  | capture body next => capture body.hushed fun verdict ds => (next verdict ds).hushed
  | attempt body next => attempt body.hushed fun result => (next result).hushed
  | ask guard v body next =>
    ask guard v (attempt body.hushed fun result => answer (result.getD false))
      fun verdict => (next verdict).hushed

/-- The calm version of a program. -/
def calmed (p : Program) : Program := attempt p.hushed fun result => answer (result.getD false)

theorem run_calmed (p : Program) (s : Session) :
    p.calmed.run s = (some ((p.hushed.run s).1.getD false), (p.hushed.run s).2) := rfl

theorem history_calmed (p : Program) (s : Session) : p.calmed.history s = p.hushed.history s :=
  List.append_nil _

/-- **A program and its hushed version unwind together**, and the steps of the second are the calm
versions of those of the first. Induction on the program, from every session. -/
theorem hushed_same (p : Program) (s : Session) :
    (p.hushed.run s).1 = (p.run s).1 ∧ p.hushed.history s = (p.history s).map Step.calm := by
  -- both unwind together; where one goes on after a body, it does so from a session that is alike
  induction p generalizing s with
  | answer verdict => exact ⟨rfl, rfl⟩
  | panic => exact ⟨rfl, rfl⟩
  | perform effect next ih =>
    obtain ⟨hverdict, hhistory⟩ := ih () (s.perform effect)
    exact ⟨hverdict, congrArg (Step.did effect :: ·) hhistory⟩
  | settings next ih => exact ih s.settings s
  | marks next ih => exact ih s.marks s
  | capture body next ihBody ihNext =>
    have halike := alike_of_history_calm (ihBody s).2
    rw [hushed, body.traced.run_capture, body.hushed.traced.run_capture,
      body.traced.history_capture, body.hushed.traced.history_capture, (ihBody s).1, (ihBody s).2,
      sent_calm]
    cases (body.run s).1 with
    | none => exact ⟨rfl, by simp⟩
    | some verdict =>
      obtain ⟨hverdict, hhistory⟩ := ihNext verdict (sent s.settings (body.history s)) (body.run s).2
      refine ⟨(verdict_alike _ halike).trans hverdict, ?_⟩
      rw [List.map_append, ← hhistory]
      exact congrArg (_ ++ ·) (history_alike _ halike)
  | attempt body next ihBody ihNext =>
    have halike := alike_of_history_calm (ihBody s).2
    obtain ⟨hverdict, hhistory⟩ := ihNext (body.run s).1 (body.run s).2
    rw [hushed, run_attempt, run_attempt, history_attempt, history_attempt, (ihBody s).1,
      (ihBody s).2, List.map_append, ← hhistory]
    exact ⟨(verdict_alike _ halike).trans hverdict, congrArg (_ ++ ·) (history_alike _ halike)⟩
  | ask guard v body next ihBody ihNext =>
    -- the predicate is the only part that is calmed, and it is so by the hypothesis for it
    have hbody : body.calmed.Calms body :=
      ⟨fun t => by rw [run_calmed, (ihBody t).1], fun t => by rw [history_calmed, (ihBody t).2]⟩
    have halike := hbody.follow_alike guard s
    obtain ⟨hverdict, hhistory⟩ := ihNext ((body.run s).1.getD false)
      ((body.run s).2.follow (.answered guard (body.run s).1))
    show ((ask guard v body.calmed _).run s).1 = _ ∧ (ask guard v body.calmed _).history s = _
    rw [run_ask, run_ask, history_ask, history_ask, hbody.getD_verdict, hbody.history,
      List.map_append, List.map_cons, List.map_cons, hbody.answered, ← hhistory]
    exact ⟨(verdict_alike _ halike).trans hverdict,
      congrArg (_ ++ _ :: ·) (history_alike _ halike)⟩

/-- **Every program has a calm version.** -/
theorem calms_calmed (p : Program) : p.calmed.Calms p :=
  ⟨fun s => by rw [run_calmed, (p.hushed_same s).1],
    fun s => by rw [history_calmed, (p.hushed_same s).2]⟩

end Program

/-! ## Reports of what unwound -/

/-- The guards whose predicates unwound, in order. -/
def panics (h : List Step) : List String :=
  h.filterMap fun
    | .answered guard none => some guard
    | _ => none

/-- One list of events is another with a report more for each of some guards, in order. -/
inductive PanicsReported : List String → List Event → List Event → Prop where
  | nil : PanicsReported [] [] []
  | same {guards : List String} {es es' : List Event} (e : Event)
      (h : PanicsReported guards es es') : PanicsReported guards (e :: es) (e :: es')
  | panic {guards : List String} {es es' : List Event} (guard : String)
      (h : PanicsReported guards es es') :
      PanicsReported (guard :: guards) es (.predicatePanicked guard :: es')

/-- Events that both have in front change nothing. -/
theorem PanicsReported.append {guards : List String} {es es' : List Event} (front : List Event)
    (h : PanicsReported guards es es') : PanicsReported guards (front ++ es) (front ++ es') := by
  induction front with
  | nil => exact h
  | cons e rest ih => exact .same e ih

/-- **A calm history reports what the other does, but for the predicates that unwound.** -/
theorem panicsReported_logged (settings : Settings) (h : List Step) :
    PanicsReported (panics h) (logged settings (h.map Step.calm)) (logged settings h) := by
  induction h generalizing settings with
  | nil => exact .nil
  | cons x rest ih =>
    have hrest := ih (x.settingsAfter settings)
    rw [List.map_cons, logged, logged, Step.settingsAfter_calm]
    cases x with
    | did effect => exact hrest.append _
    | asked guard v => exact hrest
    | answered guard verdict =>
      cases verdict with
      -- here alone the histories differ: the calm one has nothing to report
      | none => exact .panic guard hrest
      | some verdict => exact hrest

/-- Nothing in a calm history tells of unwinding. -/
theorem panics_calm (h : List Step) : panics (h.map Step.calm) = [] := by
  induction h with
  | nil => rfl
  | cons x rest ih => rcases x with _ | _ | ⟨_, _ | _⟩ <;> exact ih

/-- Every answer in a history comes from the guard that was asked last and had not answered yet.
The list holds the guards that had not answered before, innermost first. -/
def Nested : List String → List Step → Prop
  | _, [] => True
  | opened, .did _ :: rest => Nested opened rest
  | opened, .asked guard _ :: rest => Nested (guard :: opened) rest
  | opened, .answered guard _ :: rest => opened.head? = some guard ∧ Nested opened.tail rest

/-- The history of a run answers for every guard that it asks, in whatever it stands. -/
theorem Program.nested_append (p : Program) (s : Session) (opened : List String)
    (rest : List Step) : Nested opened (p.history s ++ rest) ↔ Nested opened rest := by
  -- for every history that may come behind: a body is followed by what its construct does next
  induction p generalizing s opened rest with
  | answer verdict => exact Iff.rfl
  | panic => exact Iff.rfl
  | perform effect next ih => exact ih () (s.perform effect) opened rest
  | settings next ih => exact ih s.settings s opened rest
  | marks next ih => exact ih s.marks s opened rest
  | capture body next ihBody ihNext =>
    rw [body.traced.history_capture, List.append_assoc, ihBody]
    cases (body.run s).1 with
    | none => exact Iff.rfl
    | some verdict => exact ihNext _ _ _ _ _
  | attempt body next ihBody ihNext =>
    rw [history_attempt, List.append_assoc, ihBody, ihNext]
  | ask guard v body next ihBody ihNext =>
    rw [history_ask, List.append_assoc, List.cons_append, Nested, ihBody, List.cons_append, Nested,
      ihNext]
    simp

/-- **Guards answer in the order opposite to that in which they are asked**, and by the end all have
answered. -/
theorem Program.nested (p : Program) (s : Session) : Nested [] (p.history s) := by
  have h := p.nested_append s [] []
  rw [List.append_nil] at h
  exact h.mpr trivial

end RecordGuard
