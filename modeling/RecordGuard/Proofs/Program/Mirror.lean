import RecordGuard.CommandLine.Log
import RecordGuard.Proofs.Program.History

/-!
# What shows of a run

Of all that a run does, somebody who looks at its output sees the diagnostics that are sent and the
events that are reported. Traces are never written on the command line, and neither is what a guard
is asked about. This module takes these steps out of a history and compares two runs by the rest.

## The architecture

* **`Step.isVisible`**, **`visible`** — the steps of a history that leave something to be seen. The
  others change no settings, send nothing and log at most a trace (`sent_visible`,
  `written_logged_visible`).
* **`Program.Mirrors`** — two programs, put to work with the same settings, come to the same verdict
  and show the same; the rules follow the constructs that records are made of.
* **`Run.Mirrors`** — the same for computations in a session; `Program.Mirrors.capture` is the way
  from programs to these.
* **`Session.Mirrors.filter_shows`** — sessions that show the same do so however much of the log is
  asked for.
-/

namespace RecordGuard

/-! ## Visible steps -/

/-- Whether an event may be written on the command line, if enough of the log is asked for. -/
def Event.isWritten (e : Event) : Bool := decide (e.level ≠ .trace)

/-- The events that may be written. -/
def written (log : List Event) : List Event := log.filter Event.isWritten

theorem written_append (log log' : List Event) :
    written (log ++ log') = written log ++ written log' :=
  List.filter_append ..

/-- Whether a step leaves something to be seen. -/
def Step.isVisible : Step → Bool
  | did (.report e _) => e.isWritten
  | did (.mark _) | asked .. | answered _ (some _) => false
  | did (.emit _) | did (.configure _) | answered _ none => true

/-- The steps of a history that leave something to be seen. -/
def visible (h : List Step) : List Step := h.filter Step.isVisible

theorem visible_append (h h' : List Step) : visible (h ++ h') = visible h ++ visible h' :=
  List.filter_append ..

namespace Step

variable {x : Step}

theorem settingsAfter_of_not_isVisible (hx : x.isVisible = false) (settings : Settings) :
    x.settingsAfter settings = settings := by
  rcases x with (_ | _ | _ | _) | _ | ⟨_, _ | _⟩ <;> simp_all [isVisible, settingsAfter]

theorem sends_of_not_isVisible (hx : x.isVisible = false) (settings : Settings) :
    x.sends settings = [] := by
  rcases x with (_ | _ | _ | _) | _ | ⟨_, _ | _⟩ <;> simp_all [isVisible, sends]

theorem written_logs_of_not_isVisible (hx : x.isVisible = false) (settings : Settings) :
    written (x.logs settings) = [] := by
  rcases x with (_ | _ | _ | _) | _ | ⟨_, _ | _⟩ <;> simp_all [isVisible, logs, written]

end Step

theorem visible_cons_of_not_isVisible {x : Step} (hx : x.isVisible = false) (h : List Step) :
    visible (x :: h) = visible h :=
  List.filter_cons_of_neg (by simp [hx])

/-- Induction over a history beside its visible steps. A step that shows is in both of them; any other
falls out, and the settings are what they were. -/
theorem visible_induction {motive : Settings → List Step → List Step → Prop}
    (nil : ∀ settings, motive settings [] [])
    (shown : ∀ settings (x : Step) {h h' : List Step}, motive (x.settingsAfter settings) h h' →
      motive settings (x :: h) (x :: h'))
    (hidden : ∀ settings {x : Step} {h h' : List Step}, x.isVisible = false →
      motive settings h h' → motive settings h (x :: h'))
    (settings : Settings) (h : List Step) : motive settings (visible h) h := by
  induction h generalizing settings with
  | nil => exact nil settings
  | cons x rest ih =>
    cases hx : x.isVisible with
    | true =>
      rw [visible, List.filter_cons_of_pos hx]
      exact shown settings x (ih (x.settingsAfter settings))
    | false =>
      rw [visible_cons_of_not_isVisible hx]
      exact hidden settings hx (ih settings)

/-- The visible steps alone leave the settings that the history leaves. -/
theorem settingsAfter_visible (settings : Settings) (h : List Step) :
    settingsAfter settings (visible h) = settingsAfter settings h := by
  refine visible_induction (motive := fun settings shown h =>
    settingsAfter settings shown = settingsAfter settings h) ?nil ?shown ?hidden settings h
  case nil => exact fun _ => rfl
  case shown => exact fun _ _ _ _ ih => ih
  case hidden =>
    intro settings x _ _ hx ih
    rw [ih, settingsAfter_cons, Step.settingsAfter_of_not_isVisible hx]

/-- **The visible steps send what the history sends.** -/
theorem sent_visible (settings : Settings) (h : List Step) :
    sent settings (visible h) = sent settings h := by
  refine visible_induction (motive := fun settings shown h =>
    sent settings shown = sent settings h) ?nil ?shown ?hidden settings h
  case nil => exact fun _ => rfl
  case shown => exact fun settings x _ _ ih => congrArg (x.sends settings ++ ·) ih
  case hidden =>
    intro settings x _ _ hx ih
    rw [ih, sent, Step.sends_of_not_isVisible hx, Step.settingsAfter_of_not_isVisible hx,
      List.nil_append]

/-- **The visible steps report all of it that may be written.** -/
theorem written_logged_visible (settings : Settings) (h : List Step) :
    written (logged settings (visible h)) = written (logged settings h) := by
  refine visible_induction (motive := fun settings shown h =>
    written (logged settings shown) = written (logged settings h)) ?nil ?shown ?hidden settings h
  case nil => exact fun _ => rfl
  case shown =>
    intro settings x _ _ ih
    rw [logged, logged, written_append, written_append, ih]
  case hidden =>
    intro settings x _ _ hx ih
    rw [ih, logged, written_append, Step.written_logs_of_not_isVisible hx,
      Step.settingsAfter_of_not_isVisible hx, List.nil_append]

/-- That a guard is asked and comes back does not show. -/
theorem visible_asked (guard : String) (v : Value) (verdict : Bool) (h h' : List Step) :
    visible (.asked guard v :: h ++ .answered guard (some verdict) :: h') =
      visible h ++ visible h' := by
  rw [List.cons_append, visible_cons_of_not_isVisible rfl, visible_append,
    visible_cons_of_not_isVisible rfl]

/-! ## Programs that show the same -/

namespace Program

theorem settings_run (p : Program) (s : Session) :
    (p.run s).2.settings = settingsAfter s.settings (visible (p.history s)) := by
  rw [settingsAfter_visible, run_session, Session.replay_eq]

/-- Put to work with these settings, both programs come to the same verdict, show the same, and leave
the settings what they are. -/
def Mirrors (settings : Settings) (p q : Program) : Prop :=
  ∀ ⦃s t : Session⦄, s.settings = settings → t.settings = settings → ∃ verdict,
    (p.run s).1 = some verdict ∧ (q.run t).1 = some verdict ∧
      visible (p.history s) = visible (q.history t) ∧
      (p.run s).2.settings = settings ∧ (q.run t).2.settings = settings

namespace Mirrors

variable {settings : Settings} {p q : Program}

theorem answer (verdict : Bool) : Mirrors settings (.answer verdict) (.answer verdict) :=
  fun _ _ hs ht => ⟨verdict, rfl, rfl, rfl, hs, ht⟩

/-- Sending the same diagnostic first: it shows on both sides, and is delivered on both or on none. -/
theorem emit (d : Diagnostic) (hpq : Mirrors settings p q) :
    Mirrors settings (.perform (.emit d) fun _ => p) (.perform (.emit d) fun _ => q) := by
  intro s t hs ht
  obtain ⟨verdict, hp, hq, hvisible, hsettings⟩ :=
    hpq ((Session.Alike.emit s d).settings.trans hs) ((Session.Alike.emit t d).settings.trans ht)
  exact ⟨verdict, hp, hq, congrArg (Step.did (.emit d) :: ·) hvisible, hsettings⟩

/-- Reading the settings, which are the same on both sides. -/
theorem ofSettings {next next' : Settings → Program}
    (hnext : Mirrors settings (next settings) (next' settings)) :
    Mirrors settings (.settings next) (.settings next') := by
  intro s t hs ht
  simp only [run, history, hs, ht]
  exact hnext hs ht

/-- A guard is asked, perhaps about different values. -/
theorem ask {next next' : Bool → Program} (guard : String) (v w : Value)
    (hpq : Mirrors settings p q)
    (hnext : ∀ verdict, Mirrors settings (next verdict) (next' verdict)) :
    Mirrors settings (.ask guard v p next) (.ask guard w q next') := by
  intro s t hs ht
  -- the verdict on the way is the same, so both go on alike, with the settings as they were
  obtain ⟨first, hp, hq, hvisible, hs', ht'⟩ := hpq hs ht
  obtain ⟨verdict, hp', hq', hvisible', hsettings⟩ := hnext first hs' ht'
  rw [run_ask, run_ask, history_ask, history_ask, hp, hq, visible_asked, visible_asked, hvisible]
  exact ⟨verdict, hp', hq', congrArg (_ ++ ·) hvisible', hsettings⟩

end Mirrors

end Program

/-! ## Sessions that show the same -/

/-- Sessions with these settings, of which the same shows. -/
structure Session.Mirrors (settings : Settings) (s t : Session) : Prop where
  left : s.settings = settings
  right : t.settings = settings
  log : written s.log.toList = written t.log.toList

theorem Session.Mirrors.report {settings : Settings} {s t : Session} (hst : s.Mirrors settings t)
    (e : Event) : (s.report e).Mirrors settings (t.report e) := by
  refine ⟨hst.left, hst.right, ?_⟩
  simp only [Session.report, Array.toList_push, written_append, hst.log]

theorem Session.Mirrors.configure {settings : Settings} {s t : Session}
    (hst : s.Mirrors settings t) (settings' : Settings) :
    (s.configure settings').Mirrors settings' (t.configure settings') :=
  ⟨rfl, rfl, hst.log⟩

/-- However much of the log is asked for, traces are not. -/
theorem Event.isWritten_of_shows {e : Event} {verbosity : Nat} (he : e.shows verbosity = true) :
    e.isWritten = true := by
  refine decide_eq_true fun htrace => ?_
  unfold Event.shows at he
  split at he <;> simp [htrace, Level.detail] at he

/-- So what is asked for is told from the events that may be written. -/
theorem filter_shows_written (verbosity : Nat) (log : List Event) :
    (written log).filter (·.shows verbosity) = log.filter (·.shows verbosity) := by
  rw [written, List.filter_filter]
  refine List.filter_congr fun e _ => ?_
  cases he : e.shows verbosity with
  | false => rfl
  | true => rw [Event.isWritten_of_shows he, Bool.and_self]

/-- **However much of the log is asked for, the same is written.** -/
theorem Session.Mirrors.filter_shows {settings : Settings} {s t : Session}
    (hst : s.Mirrors settings t) (verbosity : Nat) :
    s.log.toList.filter (·.shows verbosity) = t.log.toList.filter (·.shows verbosity) := by
  rw [← filter_shows_written, hst.log, filter_shows_written]

/-! ## Computations that show the same -/

/-- Started with one setting and left with another, both computations come to the same result and
show the same. -/
def Run.Mirrors {α : Type} (before after : Settings) (c d : Run α) : Prop :=
  ∀ ⦃s t : Session⦄, s.Mirrors before t → ∃ a s' t',
    c s = (some a, s') ∧ d t = (some a, t') ∧ s'.Mirrors after t'

namespace Run.Mirrors

variable {α β : Type} {before between after : Settings}

theorem pure (a : α) : Run.Mirrors before before (Run.pure a) (Run.pure a) :=
  fun s t hst => ⟨a, s, t, rfl, rfl, hst⟩

/-- Computations in a row, the second ones starting with the settings that the first ones leave. -/
theorem bind {c d : Run α} {next next' : α → Run β} (hcd : Run.Mirrors before between c d)
    (hnext : ∀ a, Run.Mirrors between after (next a) (next' a)) :
    Run.Mirrors before after (c >>= next) (d >>= next') := by
  intro s t hst
  obtain ⟨a, s', t', hc, hd, hst'⟩ := hcd hst
  rw [Run.bind_eq hc, Run.bind_eq hd]
  exact hnext a hst'

theorem modify {f : Session → Session}
    (hf : ∀ {s t : Session}, s.Mirrors before t → (f s).Mirrors after (f t)) :
    Run.Mirrors before after (Run.modify f) (Run.modify f) :=
  fun s t hst => ⟨(), f s, f t, rfl, rfl, hf hst⟩

theorem report (e : Event) : Run.Mirrors before before (Run.report e) (Run.report e) :=
  modify fun hst => hst.report e

end Run.Mirrors

/-- **A capture of programs that show the same.** What they send is collected alike. -/
theorem Program.Mirrors.capture {settings : Settings} {p q : Program}
    (hpq : p.Mirrors settings q) :
    Run.Mirrors settings settings (Run.capture p.run) (Run.capture q.run) := by
  intro s t hst
  obtain ⟨verdict, hp, hq, hvisible, hs', ht'⟩ := hpq hst.left hst.right
  -- what is collected and what is logged is read off the steps that show
  have hsent : sent settings (p.history s) = sent settings (q.history t) := by
    rw [← sent_visible, hvisible, sent_visible]
  have hlogged : written (logged settings (p.history s)) =
      written (logged settings (q.history t)) := by
    rw [← written_logged_visible, hvisible, written_logged_visible]
  refine ⟨(verdict, sent settings (p.history s)), (p.run s).2, (q.run t).2, ?_, ?_, hs', ht', ?_⟩
  · rw [p.traced.collects, hp, hst.left]
    rfl
  · rw [q.traced.collects, hq, hst.right, hsent]
    rfl
  · rw [p.run_session, q.run_session, Session.replay_eq, Session.replay_eq, hst.left, hst.right]
    simp only [Array.toList_append, written_append, hst.log, hlogged]

end RecordGuard
