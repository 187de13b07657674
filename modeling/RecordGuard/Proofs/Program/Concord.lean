import RecordGuard.Guard.Registry
import RecordGuard.Proofs.Program.History

/-!
# Two runs side by side

Many statements about guards compare two runs: of one program from two sessions, or of two programs
that differ in places. What they say of the sessions and of the histories varies; how they pass
through the constructs that guards are made of does not.

* **`Concord`** — a relation of sessions and one of histories that these constructs keep.
* **`Program.Concur`** — from related sessions two programs come to the same verdict, with related
  histories, and leave related sessions.
* **`Program.Concur.bind`, `Program.Concur.ask`, `Program.Concur.bind_reject`** — the constructs.
-/

namespace RecordGuard

/-! ## Refusals -/

/-- A history in which a value is put to a guard, which comes back and does not accept it. -/
def Refuses (v : Value) (h : List Step) : Prop :=
  ∃ guard body answer, h = .asked guard v :: body ++ [.answered guard answer] ∧ answer ≠ some true

/-- The program puts a value to a guard and comes to the guard's verdict. -/
def Program.Asks (p : Program) (v : Value) : Prop := ∃ guard body, p = .ask guard v body .answer

/-- A guard that is asked and does not accept leaves a history in which the value is refused. -/
theorem Program.Asks.refuses {p : Program} {v : Value} (hp : p.Asks v) {s : Session}
    (hverdict : (p.run s).1 = some false) : Refuses v (p.history s) := by
  obtain ⟨guard, body, rfl⟩ := hp
  refine ⟨guard, body.history s, (body.run s).1, history_ask guard v body .answer s, ?_⟩
  intro haccepts
  rw [run_ask, haccepts] at hverdict
  exact absurd hverdict (by simp [run, Run.pure])

/-! ## Relations that the constructs keep -/

/-- A relation of sessions and a relation of histories that are kept by everything guards are made
of. Sessions matter as far as a program can tell them apart; histories are put together piece by
piece from the steps of the library, which are the same on both sides, except that the diagnostic of
a rejection follows the settings of its side. -/
structure Concord (S : Session → Session → Prop) (H : List Step → List Step → Prop) : Prop where
  alike {s t s' t' : Session} (hst : S s t) (hs : s'.Alike s) (ht : t'.Alike t) : S s' t'
  nil : H [] []
  append {h k h' k' : List Step} (hhk : H h k) (hrest : H h' k') : H (h ++ h') (k ++ k')
  /-- A guard was asked and came back. -/
  answered {h k : List Step} (guard : String) (v : Value) (verdict : Bool) (hhk : H h k) :
    H (.asked guard v :: h ++ [.answered guard (some verdict)])
      (.asked guard v :: k ++ [.answered guard (some verdict)])
  /-- A diagnostic that carries no value. -/
  bare (d : Diagnostic) (hd : d.value = none) : H [.did (.emit d)] [.did (.emit d)]
  reported (e : Event) (he : e.isDiagnostic = false) :
    H [.did (.report e he)] [.did (.report e he)]
  /-- The diagnostic of a record, directly behind the refusal of the value that it carries. -/
  rejected {s t : Session} {h k : List Step} {target : Target} {v : Value} (schema : String)
    (hst : S s t) (hhk : H h k) (htarget : target ≠ .member) (hh : Refuses v h)
    (hk : Refuses v k) :
    H (h ++ [.did (.emit (.failed s.settings schema target v))])
      (k ++ [.did (.emit (.failed t.settings schema target v))])

/-! ## Programs that concur -/

namespace Program

/-- From related sessions both programs come to the same verdict, take related steps, and leave
related sessions. -/
def Concur (S : Session → Session → Prop) (H : List Step → List Step → Prop) (p q : Program) :
    Prop :=
  ∀ ⦃s t : Session⦄, S s t → ∃ verdict,
    (p.run s).1 = some verdict ∧ (q.run t).1 = some verdict ∧
      H (p.history s) (q.history t) ∧ S (p.run s).2 (q.run t).2

/-- Programs in a row may be put together from either end. -/
theorem bind_assoc (p : Program) (f g : Bool → Program) :
    (p.bind f).bind g = p.bind fun verdict => (f verdict).bind g := by
  induction p with
  | answer verdict => rfl
  | panic => rfl
  | perform effect next ih => exact congrArg (perform effect) (funext fun u => ih u)
  | settings next ih => exact congrArg settings (funext fun s => ih s)
  | marks next ih => exact congrArg marks (funext fun m => ih m)
  | capture body next _ ih =>
    exact congrArg (capture body) (funext fun verdict => funext fun ds => ih verdict ds)
  | attempt body next _ ih => exact congrArg (attempt body) (funext fun r => ih r)
  | ask guard v body next _ ih => exact congrArg (ask guard v body) (funext fun b => ih b)

section

variable {S : Session → Session → Prop} {H : List Step → List Step → Prop}

theorem Concur.answer (hc : Concord S H) (verdict : Bool) :
    Concur S H (answer verdict) (answer verdict) :=
  fun _ _ hst => ⟨verdict, rfl, rfl, hc.nil, hst⟩

/-- Sending a diagnostic without a value first, the same one on both sides. -/
theorem Concur.emit {p q : Program} (hc : Concord S H) {d : Diagnostic} (hd : d.value = none)
    (hpq : Concur S H p q) :
    Concur S H (perform (.emit d) fun _ => p) (perform (.emit d) fun _ => q) := by
  intro s t hst
  obtain ⟨verdict, hp, hq, hhistory, hafter⟩ :=
    -- what is sent does not show to the programs that come next
    hpq (hc.alike hst (.emit s d) (.emit t d))
  exact ⟨verdict, hp, hq, hc.append (hc.bare d hd) hhistory, hafter⟩

/-- Reporting an event first, as long as it carries no diagnostic. -/
theorem Concur.report {p q : Program} (hc : Concord S H) (e : Event)
    (he : e.isDiagnostic = false) (hpq : Concur S H p q) :
    Concur S H (perform (.report e he) fun _ => p) (perform (.report e he) fun _ => q) := by
  intro s t hst
  obtain ⟨verdict, hp, hq, hhistory, hafter⟩ :=
    hpq (hc.alike hst (.report s e) (.report t e))
  exact ⟨verdict, hp, hq, hc.append (hc.reported e he) hhistory, hafter⟩

/-- A guard whose predicates concur. -/
theorem Concur.ask {p q : Program} (hc : Concord S H) (guard : String) (v : Value)
    (hpq : Concur S H p q) :
    Concur S H (ask guard v p .answer) (ask guard v q .answer) := by
  intro s t hst
  obtain ⟨verdict, hp, hq, hhistory, hafter⟩ := hpq hst
  rw [run_ask, run_ask, history_ask, history_ask, hp, hq]
  exact ⟨verdict, rfl, rfl, hc.answered guard v verdict hhistory, hafter⟩

/-- Programs in a row: the second ones start in the sessions that the first ones leave. -/
theorem Concur.bind {p q : Program} {next next' : Bool → Program} (hc : Concord S H)
    (hpq : Concur S H p q) (hnext : ∀ verdict, Concur S H (next verdict) (next' verdict)) :
    Concur S H (p.bind next) (q.bind next') := by
  intro s t hst
  obtain ⟨first, hp, hq, hhistory, hafter⟩ := hpq hst
  obtain ⟨verdict, hp', hq', hhistory', hafter'⟩ := hnext first hafter
  rw [run_bind, run_bind, history_bind, history_bind, hp, hq]
  exact ⟨verdict, hp', hq', hc.append hhistory hhistory', hafter'⟩

/-- Going on one way after an acceptance and another way after a rejection. -/
theorem Concur.bind_ite {p q accepted accepted' rejected rejected' : Program} (hc : Concord S H)
    (hpq : Concur S H p q) (haccepted : Concur S H accepted accepted')
    (hrejected : Concur S H rejected rejected') :
    Concur S H (p.bind fun verdict => if verdict then accepted else rejected)
      (q.bind fun verdict => if verdict then accepted' else rejected') := by
  refine hpq.bind hc fun verdict => ?_
  cases verdict with
  | false => exact hrejected
  | true => exact haccepted

/-- Going on after a guard accepts a value, and sending the diagnostic of a rejection after it
refuses it. -/
theorem Concur.bind_reject {p q accepted accepted' : Program} {v : Value} {target : Target}
    (hc : Concord S H) (schema : String) (htarget : target ≠ .member) (hp : p.Asks v)
    (hq : q.Asks v) (hpq : Concur S H p q) (haccepted : Concur S H accepted accepted') :
    Concur S H (p.bind fun verdict => if verdict then accepted else Registry.reject schema target v)
      (q.bind fun verdict => if verdict then accepted' else Registry.reject schema target v) := by
  intro s t hst
  obtain ⟨first, hfirst, hfirst', hhistory, hafter⟩ := hpq hst
  rw [run_bind, run_bind, history_bind, history_bind, hfirst, hfirst']
  -- the history is put together differently on the two ways: the diagnostic of a rejection is related
  -- only together with the refusal in front of it
  cases first with
  | true =>
    obtain ⟨verdict, hrun, hrun', hrest, hend⟩ := haccepted hafter
    exact ⟨verdict, hrun, hrun', hc.append hhistory hrest, hend⟩
  | false =>
    exact ⟨false, rfl, rfl,
      hc.rejected schema hafter hhistory htarget (hp.refuses hfirst) (hq.refuses hfirst'),
      hc.alike hafter (.emit _ _) (.emit _ _)⟩

end

end Program

end RecordGuard
