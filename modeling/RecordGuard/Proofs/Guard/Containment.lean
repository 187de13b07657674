import RecordGuard.Proofs.Guard.Concord
import RecordGuard.Proofs.Program.Calm

/-!
# Guards contain what unwinds

A predicate that unwinds is as good as one that does the same up to that point and then rejects.

* **`concord_calm`** — calm histories, from sessions that are alike, are kept by all that guards are
  made of.
* **`Guard.calms_check`** — calm code at the leaves makes a calm tree.
* **`Guard.answers_check`**, **`Guard.answers_evaluate`** — guards, and records inside them, come to a
  verdict.
* **`check_calmed`** — the headline.
-/

namespace RecordGuard

/-- Alike sessions, and a history that is the calm version of the other. -/
theorem concord_calm : Concord Session.Alike fun h k => h = k.map Step.calm where
  alike hst hs ht := hs.trans (hst.trans ht.symm)
  nil := rfl
  append hhk hrest := by rw [hhk, hrest, List.map_append]
  answered guard v verdict hhk := by
    rw [hhk, List.cons_append, List.cons_append, List.map_cons, List.map_append]
    rfl
  bare _ _ := rfl
  reported _ _ := rfl
  rejected schema hst hhk _ _ _ := by
    rw [hhk, hst.settings, List.map_append]
    rfl

namespace Program

/-- Calm code that comes to a verdict is in concord with the code it calms. -/
theorem CalmsAnswer.concur {q p : Program} (h : q.CalmsAnswer p) :
    Concur Session.Alike (fun h k => h = k.map Step.calm) q p := by
  intro s t hst
  obtain ⟨verdict, hverdict⟩ := h.answers t
  have hq : (q.run s).1 = some verdict := by
    rw [q.verdict_alike hst, h.calms.verdict, hverdict, Option.getD_some]
  have hhistory : q.history s = (p.history t).map Step.calm :=
    (q.history_alike hst).trans (h.calms.history t)
  exact ⟨verdict, hq, hverdict, hhistory,
    (q.run_alike hst).trans (alike_of_history_calm (h.calms.history t))⟩

/-- Concord of this sort says no more than that: the one program is a calm version of the other. -/
theorem Concur.calmsAnswer {q p : Program}
    (h : Concur Session.Alike (fun h k => h = k.map Step.calm) q p) : q.CalmsAnswer p := by
  refine ⟨⟨fun s => ?_, fun s => ?_⟩, fun s => ?_⟩
  all_goals obtain ⟨verdict, hq, hp, hhistory, -⟩ := h (.refl s)
  · rw [hq, hp, Option.getD_some]
  · exact hhistory
  · exact ⟨verdict, hp⟩

end Program

/-- A guard made of a leaf contains what unwinds there. -/
theorem Program.Calms.concur_ask {q p : Program} (h : q.Calms p) (label : String) (v : Value) :
    Concur Session.Alike (fun h k => h = k.map Step.calm) (.ask label v q .answer)
      (.ask label v p .answer) := by
  have hcalms : (Program.ask label v q .answer).CalmsAnswer (.ask label v p .answer) :=
    ⟨.ask label v h Program.calms_answer, .ask label v Program.answers_answer⟩
  exact hcalms.concur

/-- **Calm code makes a calm tree.** What unwinds at a leaf is contained by the guard that is made of
it, and from there on up every program comes to a verdict. -/
theorem Guard.calms_check {f : Predicate → Predicate} (hf : ∀ p v, (f p v).Calms (p v))
    (g : Guard) (v : Value) : ((g.withCode f).check v).CalmsAnswer (g.check v) := by
  -- the tree itself is the one in which each leaf is put in place of itself
  have hconcur := (concur_check concord_calm f (fun p => p) g
    fun p _ label x => (hf p x).concur_ask label x).programs v
  rw [withCode_self] at hconcur
  exact hconcur.calmsAnswer

theorem Guard.answers_check (g : Guard) (v : Value) : (g.check v).Answers := by
  cases g <;> exact .ask _ v Program.answers_answer

/-- **A record comes to a verdict by itself.** All that it asks are guards, so there is nothing left
that its own guard would have to contain. -/
theorem Guard.answers_evaluate (registry : Registry Guard) (v : Value) :
    ((checkRegistry registry).evaluate v).Answers := by
  have hconcur := (concur_checkRegistry concord_calm (fun p x => (p x).calmed) (fun p => p) registry
    fun p _ label x => (p x).calms_calmed.concur_ask label x).evaluate concord_calm v
  rw [registryWithCode_self] at hconcur
  exact hconcur.calmsAnswer.answers

/-! ## The headline -/

/-- **A predicate that unwinds counts as one that rejects.** Let each predicate of a guard tree be
replaced by one that takes the same steps and rejects where the predicate unwinds. From any session,
both trees come to the same verdict on any value, in the same steps but for the answers of those
predicates; in particular every guard is asked after one that unwound as it is after one that
rejected. The sessions they leave have the same settings, the same open scopes holding the same
diagnostics, and the same marks; the logs differ in one report for each predicate that unwound, under
the label of the guard that was asked last and had not answered yet. -/
theorem check_calmed {f : Predicate → Predicate} (hf : ∀ p v, (f p v).Calms (p v)) (g : Guard)
    (v : Value) (s : Session) :
    let calm := g.withCode f
    let h := (g.check v).history s
    ∃ (verdict : Bool) (t : Session) (es es' : List Event),
      (g.check v).run s = (some verdict, { t with log := s.log ++ es.toArray }) ∧
      (calm.check v).run s = (some verdict, { t with log := s.log ++ es'.toArray }) ∧
      PanicsReported (panics h) es' es ∧
      (calm.check v).history s = h.map Step.calm ∧
      panics ((calm.check v).history s) = [] ∧
      Nested [] h := by
  intro calm h
  obtain ⟨hcalm, hanswers⟩ := Guard.calms_check hf g v
  obtain ⟨verdict, hverdict⟩ := hanswers s
  -- both runs are told by their histories, and these differ in the answers alone
  have hhistory : (calm.check v).history s = h.map Step.calm := hcalm.history s
  have hrun : (g.check v).run s = (some verdict, s.replay h) :=
    Prod.ext hverdict ((g.check v).run_session s)
  have hcalmRun : (calm.check v).run s = (some verdict, s.replay (h.map Step.calm)) := by
    refine Prod.ext ?_ ?_
    · rw [hcalm.verdict, hverdict, Option.getD_some]
    · rw [Program.run_session, hhistory]
  -- the session is that of the tree itself; only the logs are taken apart
  refine ⟨verdict, s.replay h, logged s.settings h, logged s.settings (h.map Step.calm), ?_, ?_,
    panicsReported_logged s.settings h, hhistory, ?_, (g.check v).nested s⟩
  · rw [hrun, Session.replay_eq]
  · rw [hcalmRun, Session.replay_eq, Session.replay_eq, settingsAfter_calm, sent_calm, marks_calm]
  · rw [hhistory, panics_calm]

/-- An array whose first element makes a predicate send a diagnostic and unwind. -/
theorem check_calmed_array :
    let bad : Guard := .custom "bad" fun _ => .perform (.emit .memberFailed) fun _ => .panic
    let calm : Predicate → Predicate := fun p v => (p v).calmed
    let s := Session.start .standard
    (∀ p v, (calm p v).Calms (p v)) ∧
    ∃ (t : Session) (es es' : List Event),
      ((Guard.arrayOf bad).check (.array [.null])).run s =
        (some false, { t with log := s.log ++ es.toArray }) ∧
      (((Guard.arrayOf bad).withCode calm).check (.array [.null])).run s =
        (some false, { t with log := s.log ++ es'.toArray }) ∧
      PanicsReported ["bad"] es' es := by
  intro bad calm s
  have hcalm : ∀ p v, (calm p v).Calms (p v) := fun p v => (p v).calms_calmed
  obtain ⟨verdict, t, es, es', hrun, hcalmRun, hreported, -, -, -⟩ :=
    check_calmed hcalm (.arrayOf bad) (.array [.null]) s
  obtain rfl : verdict = false := (Option.some.inj (congrArg Prod.fst hrun)).symm
  exact ⟨hcalm, t, es, es', hrun, hcalmRun, hreported⟩

end RecordGuard
