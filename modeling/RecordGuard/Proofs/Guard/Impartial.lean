import RecordGuard.Proofs.Guard.Concord
import RecordGuard.Proofs.Program.Capture
import RecordGuard.Proofs.Value.Fields

/-!
# Diagnostics never alter a verdict

The settings and the open scopes are read whenever a diagnostic is made or sent, and by nothing that
comes to a verdict. So two checks of a value by one guard tree, from whatever sessions, go the same
way, as far as the caller's own predicates do.

## The architecture

* **`Parallel`** — two histories of one tree: the same guards are asked in the same order, and they
  differ at most inside the caller's own predicates and in what the diagnostic of a rejection shows.
* **`concord_parallel`** — parallel histories are kept by all that guards are made of.
* **`Unchanged`**, **`emitted`** — while the settings stay what they are, what is delivered is all
  that is sent or nothing.
* **`Session.Veiled`**, **`Predicate.Candid`** — two sessions of which the second withholds values,
  and predicates that make nothing of the difference.
* **`check_impartial`** — the headline.
-/

namespace RecordGuard

/-! ## What is asked -/

/-- The guards that are asked in a history, and what is put to them. -/
def asked (h : List Step) : List (String × Value) :=
  h.filterMap fun
    | .asked guard v => some (guard, v)
    | _ => none

theorem asked_append (h h' : List Step) : asked (h ++ h') = asked h ++ asked h' :=
  List.filterMap_append

theorem asked_cons (guard : String) (v : Value) (h : List Step) :
    asked (.asked guard v :: h) = (guard, v) :: asked h := rfl

/-! ## Parallel histories -/

/-- Histories of one guard tree with the given code, from sessions that `S` relates. -/
inductive Parallel (S : Session → Session → Prop) (code : List Predicate) :
    List Step → List Step → Prop where
  | nil : Parallel S code [] []
  | append {h k h' k' : List Step} (hhk : Parallel S code h k) (hrest : Parallel S code h' k') :
      Parallel S code (h ++ h') (k ++ k')
  /-- The same guard of the library is asked about the same value and comes back with the same
  verdict. -/
  | answered {h k : List Step} (guard : String) (v : Value) (verdict : Bool)
      (hhk : Parallel S code h k) :
      Parallel S code (.asked guard v :: h ++ [.answered guard (some verdict)])
        (.asked guard v :: k ++ [.answered guard (some verdict)])
  /-- The same predicate of the caller's own is put to work on the same value. -/
  | code {p : Predicate} {s t : Session} (hp : p ∈ code) (hst : S s t) (label : String) (v : Value) :
      Parallel S code
        (.asked label v :: (p v).history s ++ [.answered label ((p v).run s).1])
        (.asked label v :: (p v).history t ++ [.answered label ((p v).run t).1])
  | bare (d : Diagnostic) (hd : d.value = none) :
      Parallel S code [.did (.emit d)] [.did (.emit d)]
  | reported (e : Event) (he : e.isDiagnostic = false) :
      Parallel S code [.did (.report e he)] [.did (.report e he)]
  /-- A value is refused, and a record says so: the diagnostic carries this value, as the settings
  in effect have it shown. -/
  | rejected {s t : Session} {h k : List Step} {target : Target} {v : Value} (schema : String)
      (hst : S s t) (hhk : Parallel S code h k) (htarget : target ≠ .member) (hh : Refuses v h)
      (hk : Refuses v k) :
      Parallel S code (h ++ [.did (.emit (.failed s.settings schema target v))])
        (k ++ [.did (.emit (.failed t.settings schema target v))])

/-- **Parallel histories are kept** by all that guards are made of: this is the one place where the
constructors are matched with the constructs. -/
theorem concord_parallel {S : Session → Session → Prop}
    (halike : ∀ {s t s' t' : Session}, S s t → s'.Alike s → t'.Alike t → S s' t')
    (code : List Predicate) : Concord S (Parallel S code) where
  alike := halike
  nil := .nil
  append := .append
  answered := .answered
  bare := .bare
  reported := .reported
  rejected := .rejected

/-! ## Verdicts -/

namespace Predicate

/-- The verdict depends on the value alone, and so does whether there is one. -/
def AnswersByValue (p : Predicate) : Prop := ∀ v s t, ((p v).run s).1 = ((p v).run t).1

/-- The guards that the predicate asks itself depend on the value alone. -/
def AsksByValue (p : Predicate) : Prop :=
  ∀ v s t, asked ((p v).history s) = asked ((p v).history t)

/-- A predicate that answers by the value as a leaf of a tree, where it leaves related sessions. -/
theorem AnswersByValue.concur {S : Session → Session → Prop} {code : List Predicate}
    {p : Predicate} (hp : p.AnswersByValue) (hc : Concord S (Parallel S code)) (hmem : p ∈ code)
    (hS : ∀ {s t} v, S s t → S ((p v).run s).2 ((p v).run t).2) (label : String) (v : Value) :
    Program.Concur S (Parallel S code) (.ask label v (p v) .answer) (.ask label v (p v) .answer) := by
  intro s t hst
  -- what the library adds around the predicate is at most a log entry
  have hfollow : ∀ (u : Session) (answer : Option Bool),
      (u.follow (.answered label answer)).Alike u := by
    intro u answer
    cases answer <;> exact ⟨rfl, rfl⟩
  have hafter : S (((p v).run s).2.follow (.answered label ((p v).run s).1))
      (((p v).run t).2.follow (.answered label ((p v).run t).1)) :=
    hc.alike (hS v hst) (hfollow _ _) (hfollow _ _)
  rw [Program.history_ask, Program.history_ask, Program.run_ask, Program.run_ask]
  refine ⟨((p v).run t).1.getD false, ?_, rfl, .code hmem hst label v, hafter⟩
  rw [hp v s t]
  rfl

end Predicate

/-- Parallel histories ask the same, if the code of the caller's own does. -/
theorem Parallel.asked_eq {S : Session → Session → Prop} {code : List Predicate}
    {h k : List Step} (hhk : Parallel S code h k) (hcode : ∀ p ∈ code, p.AsksByValue) :
    asked h = asked k := by
  induction hhk with
  | nil => rfl
  | append _ _ ih ih' => rw [asked_append, asked_append, ih, ih']
  | answered guard v verdict _ ih =>
    rw [List.cons_append, List.cons_append, asked_cons, asked_cons, asked_append, asked_append, ih]
  | @code p s t hp _ label v =>
    rw [List.cons_append, List.cons_append, asked_cons, asked_cons, asked_append, asked_append,
      hcode p hp v s t]
    rfl
  | bare d _ => rfl
  | reported e _ => rfl
  | rejected schema _ _ _ _ _ ih => rw [asked_append, asked_append, ih]; rfl

/-! ## Settings that stay -/

/-- No step changes the settings. -/
def Unchanged (settings : Settings) (h : List Step) : Prop :=
  ∀ x ∈ h, x.settingsAfter settings = settings

theorem Unchanged.append {settings : Settings} {h h' : List Step} (hh : Unchanged settings h)
    (hh' : Unchanged settings h') : Unchanged settings (h ++ h') :=
  List.forall_mem_append.mpr ⟨hh, hh'⟩

/-- A guard leaves the settings alone if its body does. -/
theorem Unchanged.answered {settings : Settings} {h : List Step} (hh : Unchanged settings h)
    (guard : String) (v : Value) (answer : Option Bool) :
    Unchanged settings (.asked guard v :: h ++ [.answered guard answer]) := by
  refine .append (h := .asked guard v :: h) ?_ ?_
  · exact List.forall_mem_cons.mpr ⟨rfl, hh⟩
  · exact List.forall_mem_singleton.mpr rfl

theorem unchanged_emit (settings : Settings) (d : Diagnostic) :
    Unchanged settings [.did (.emit d)] :=
  List.forall_mem_singleton.mpr rfl

/-- The settings at the end are those at the beginning. -/
theorem Unchanged.settingsAfter {settings : Settings} {h : List Step}
    (hh : Unchanged settings h) : settingsAfter settings h = settings := by
  induction h with
  | nil => rfl
  | cons x rest ih =>
    have hx : x.settingsAfter settings = settings := hh x List.mem_cons_self
    rw [settingsAfter_cons, hx]
    exact ih fun y hy => hh y (List.mem_cons_of_mem x hy)

/-- The diagnostics that are sent in a history, whether they are delivered or not. -/
def emitted (h : List Step) : List Diagnostic :=
  h.filterMap fun
    | .did (.emit d) => some d
    | _ => none

theorem emitted_append (h h' : List Step) : emitted (h ++ h') = emitted h ++ emitted h' :=
  List.filterMap_append

/-- **Under settings that stay, all that is sent is delivered or nothing is.** -/
theorem sent_of_unchanged {settings : Settings} {h : List Step} (hh : Unchanged settings h) :
    sent settings h = if settings.enabled then emitted h else [] := by
  induction h with
  | nil => simp [sent, emitted]
  | cons x rest ih =>
    have hx : x.settingsAfter settings = settings := hh x List.mem_cons_self
    have hrest := ih fun y hy => hh y (List.mem_cons_of_mem x hy)
    rw [sent, hx, hrest]
    -- the first step is delivered or not by the settings it finds, and the rest finds the same ones
    cases hon : settings.enabled with
    | false => rcases x with (_ | _ | _ | _) | _ | _ <;> simp [Step.sends, hon]
    | true => rcases x with (_ | _ | _ | _) | _ | _ <;> simp [Step.sends, emitted, hon]

/-- What is delivered has been sent, whatever the settings do. -/
theorem mem_emitted_of_mem_sent {settings : Settings} {h : List Step} {d : Diagnostic}
    (hd : d ∈ sent settings h) : d ∈ emitted h := by
  induction h generalizing settings with
  | nil => exact hd
  | cons x rest ih =>
    rw [sent, List.mem_append] at hd
    rw [← List.singleton_append, emitted_append, List.mem_append]
    refine hd.imp (fun hnow => ?_) ih
    rcases x with (_ | _ | _ | _) | _ | _ <;> simp_all [Step.sends, emitted]

/-- Leaving the settings alone is kept by all that guards are made of. -/
theorem concord_unchanged (settings : Settings) :
    Concord (fun s _ => s.settings = settings) fun h _ => Unchanged settings h where
  alike hst hs _ := hs.settings.trans hst
  nil := List.forall_mem_nil _
  append := .append
  answered guard v verdict hhk := hhk.answered guard v (some verdict)
  bare d _ := unchanged_emit settings d
  reported _ _ := List.forall_mem_singleton.mpr rfl
  rejected _ _ hhk _ _ _ := hhk.append (unchanged_emit settings _)

/-- **A tree leaves the settings alone where its leaves do.** -/
theorem Guard.unchanged_check (g : Guard) (hanswers : ∀ p ∈ g.code, p.AnswersByValue)
    (hcode : ∀ p ∈ g.code, ∀ v s, Unchanged s.settings ((p v).history s)) (v : Value)
    (s : Session) : Unchanged s.settings ((g.check v).history s) := by
  -- the second session is not looked at: the run is put beside itself
  have hleaf : ∀ p ∈ g.code, ∀ label x,
      Program.Concur (fun t _ => t.settings = s.settings) (fun h _ => Unchanged s.settings h)
        (.ask label x (p x) .answer) (.ask label x (p x) .answer) := by
    intro p hp label x t u ht
    have hunchanged := hcode p hp x t
    rw [ht] at hunchanged
    have hsteps := hunchanged.answered label x ((p x).run t).1
    refine ⟨((p x).run u).1.getD false, ?_, Program.run_ask .. ▸ rfl, hsteps, ?_⟩
    · rw [Program.run_ask, hanswers p hp x t u]
      rfl
    · rw [Program.run_session, Session.replay_eq, Program.history_ask, ht]
      exact hsteps.settingsAfter
  obtain ⟨-, -, -, hhistory, -⟩ := g.concur_self (concord_unchanged s.settings) hleaf v (t := s) rfl
  exact hhistory

/-! ## Values that are withheld -/

/-- Marks that differ at most in the texts that were collected. -/
def Mark.Alike : Mark → Mark → Prop
  | called name, called other => name = other
  | collected texts, collected others => texts.length = others.length
  | _, _ => False

/-- Diagnostics are on, and the second session withholds the values that the first one shows. -/
structure Session.Veiled (s t : Session) : Prop where
  shown : s.settings = ⟨true, false⟩
  withheld : t.settings = ⟨true, true⟩
  marks : List.Forall₂ Mark.Alike s.marks.toList t.marks.toList

theorem Session.Veiled.alike {s t s' t' : Session} (hst : s.Veiled t) (hs : s'.Alike s)
    (ht : t'.Alike t) : s'.Veiled t' := by
  obtain ⟨hshown, hwithheld, hmarks⟩ := hst
  exact ⟨hs.settings.trans hshown, ht.settings.trans hwithheld, by rwa [hs.marks, ht.marks]⟩

/-- Diagnostics that agree in everything but the text of a value. -/
structure Diagnostic.SameOutline (d e : Diagnostic) : Prop where
  kind : d.kind = e.kind
  schema : d.schema = e.schema
  target : d.target = e.target
  value : d.value = none ↔ e.value = none

theorem Diagnostic.SameOutline.refl (d : Diagnostic) : d.SameOutline d := ⟨rfl, rfl, rfl, Iff.rfl⟩

/-- The predicate leaves the settings alone, and whether values are withheld makes no difference to
it but for the texts of values. -/
structure Predicate.Candid (p : Predicate) : Prop where
  unchanged (v : Value) (s : Session) : Unchanged s.settings ((p v).history s)
  emitted {s t : Session} (v : Value) (hst : s.Veiled t) :
    List.Forall₂ Diagnostic.SameOutline (emitted ((p v).history s)) (emitted ((p v).history t))
  marks {s t : Session} (v : Value) (hst : s.Veiled t) :
    List.Forall₂ Mark.Alike (((p v).history s).flatMap Step.marks)
      (((p v).history t).flatMap Step.marks)

/-- A candid predicate leaves sessions of this sort behind. -/
theorem Predicate.Candid.veiled {p : Predicate} (hp : p.Candid) {s t : Session} (v : Value)
    (hst : s.Veiled t) : (((p v).run s).2).Veiled ((p v).run t).2 := by
  rw [Program.run_session, Program.run_session, Session.replay_eq, Session.replay_eq]
  refine ⟨(hp.unchanged v s).settingsAfter.trans hst.shown,
    (hp.unchanged v t).settingsAfter.trans hst.withheld, ?_⟩
  -- the marks it sets are alike and come behind marks that were
  simpa using List.rel_append hst.marks (hp.marks v hst)

/-- Diagnostics that are sent at corresponding places of two checks of a tree with the given code, of
which the second withholds values. -/
inductive Diagnostic.Veiled (code : List Predicate) : Diagnostic → Diagnostic → Prop where
  /-- The library sends the same diagnostic if it carries no value. -/
  | bare (d : Diagnostic) (hd : d.value = none) : Veiled code d d
  /-- A record rejects a value: its text on one side, the placeholder on the other. -/
  | rejected (schema : String) (target : Target) (htarget : target ≠ .member) (v : Value) :
      Veiled code ⟨.validationFailed, some schema, target, some v.text⟩
        ⟨.validationFailed, some schema, target, some RecordGuard.withheld⟩
  /-- The code of a predicate sends both. -/
  | code {p : Predicate} {s t : Session} {d e : Diagnostic} (hp : p ∈ code) (v : Value)
      (hst : s.Veiled t) (hd : d ∈ emitted ((p v).history s)) (he : e ∈ emitted ((p v).history t))
      (hde : d.SameOutline e) : Veiled code d e

/-- Diagnostics at corresponding places agree but for the text of a value. -/
theorem Diagnostic.Veiled.sameOutline {code : List Predicate} {d e : Diagnostic}
    (h : Diagnostic.Veiled code d e) : d.SameOutline e := by
  cases h with
  | bare d _ => exact .refl d
  | rejected schema target _ v => exact ⟨rfl, rfl, rfl, by simp⟩
  | code _ _ _ _ _ hde => exact hde

/-- **What parallel histories send**, if the second withholds values. -/
theorem Parallel.veiled {code : List Predicate} {h k : List Step}
    (hhk : Parallel Session.Veiled code h k) (hcode : ∀ p ∈ code, p.Candid) :
    List.Forall₂ (Diagnostic.Veiled code) (emitted h) (emitted k) := by
  induction hhk with
  | nil => exact .nil
  | append _ _ ih ih' =>
    rw [emitted_append, emitted_append]
    exact List.rel_append ih ih'
  | answered guard v verdict _ ih =>
    rw [emitted_append, emitted_append]
    exact List.rel_append ih .nil
  | @code p s t hp hst label v =>
    rw [emitted_append, emitted_append]
    refine List.rel_append ?_ .nil
    -- of each pair it is also kept that the predicate sends both
    refine (forall₂_and_mem ((hcode p hp).emitted v hst)).imp fun d e hde => ?_
    exact .code hp v hst hde.1 hde.2.1 hde.2.2
  | bare d hd => exact .cons (.bare d hd) .nil
  | reported e he => exact .nil
  | @rejected s t h k target v schema hst _ htarget _ _ ih =>
    rw [emitted_append, emitted_append, hst.shown, hst.withheld]
    exact List.rel_append ih (.cons (.rejected schema target htarget v) .nil)

/-! ## The headline -/

/-- **Diagnostics never alter a verdict.** Let the caller's own predicates in a guard tree come to
verdicts that depend on the value alone, or to none. Then the tree comes to the same verdict on a
value from any two sessions, whatever their settings and open scopes, and both checks ask the same
guards in the same order; inside the caller's own predicates too, where what these ask depends on the
value alone.

If moreover these predicates leave the settings alone and make nothing of withheld values, then
while diagnostics are off no scope and no channel receives anything; and while they are on, a check
that withholds values sends the same diagnostics at the same places, of which the rejections by
records carry the placeholder instead of the text of the value that was refused. -/
theorem check_impartial (g : Guard) (hanswers : ∀ p ∈ g.code, p.AnswersByValue) (v : Value) :
    (∀ s t, ∃ verdict,
      (g.verdict v s).1 = some verdict ∧ (g.verdict v t).1 = some verdict ∧
      Parallel (fun _ _ => True) g.code ((g.check v).history s) ((g.check v).history t) ∧
      ((∀ p ∈ g.code, p.AsksByValue) →
        asked ((g.check v).history s) = asked ((g.check v).history t))) ∧
    ((∀ p ∈ g.code, p.Candid) →
      (∀ s, s.settings.enabled = false →
        (g.verdict v s).2.scopes = s.scopes ∧
        diagnosed (g.verdict v s).2.log = diagnosed s.log ∧
        (Run.capture (g.verdict v) s).1 = (g.verdict v s).1.map fun verdict => (verdict, [])) ∧
      ∀ s t, s.Veiled t → ∃ verdict ds es,
        (Run.capture (g.verdict v) s).1 = some (verdict, ds) ∧
        (Run.capture (g.verdict v) t).1 = some (verdict, es) ∧
        List.Forall₂ Diagnostic.SameOutline ds es ∧
        List.Forall₂ (Diagnostic.Veiled g.code) ds es ∧
        Parallel Session.Veiled g.code ((g.check v).history s) ((g.check v).history t) ∧
        ds = emitted ((g.check v).history s) ∧ es = emitted ((g.check v).history t)) := by
  refine ⟨fun s t => ?_, fun hcandid => ⟨fun s hoff => ?_, fun s t hst => ?_⟩⟩
  · -- nothing is assumed of the two sessions
    have hc : Concord (fun _ _ => True) (Parallel (fun _ _ => True) g.code) :=
      concord_parallel (fun _ _ _ => trivial) g.code
    obtain ⟨verdict, hs, ht, hparallel, -⟩ := g.concur_self hc
      (fun p hp => (hanswers p hp).concur hc hp fun _ _ => trivial) v trivial
    exact ⟨verdict, hs, ht, hparallel, hparallel.asked_eq⟩
  · -- diagnostics are off, and stay off
    have hunchanged := g.unchanged_check hanswers (fun p hp => (hcandid p hp).unchanged) v s
    have hsent : sent s.settings ((g.check v).history s) = [] := by
      rw [sent_of_unchanged hunchanged, hoff]
      rfl
    have hlog := diagnosed_logged s.settings ((g.check v).history s)
    rw [hsent] at hlog
    refine ⟨?_, ?_, ?_⟩
    · rw [Guard.verdict, Program.run_session, Session.replay_eq, hsent]
      simp
    · rw [Guard.verdict, Program.run_session, Session.replay_eq]
      simp [diagnosed, hlog]
    · rw [Guard.verdict, (g.check v).traced.collects, hsent]
  · -- diagnostics are on, and the second session withholds values
    have hc : Concord Session.Veiled (Parallel Session.Veiled g.code) :=
      concord_parallel Session.Veiled.alike g.code
    obtain ⟨verdict, hs, ht, hparallel, -⟩ := g.concur_self hc
      (fun p hp => (hanswers p hp).concur hc hp fun x hxy => (hcandid p hp).veiled x hxy) v hst
    -- the settings stay what they are, so what is collected is all that is sent
    have hcollects : ∀ {u : Session}, u.settings.enabled = true →
        ((g.check v).run u).1 = some verdict →
        (Run.capture (g.verdict v) u).1 = some (verdict, emitted ((g.check v).history u)) := by
      intro u hon hu
      have hunchanged := g.unchanged_check hanswers (fun p hp => (hcandid p hp).unchanged) v u
      rw [Guard.verdict, (g.check v).traced.collects, hu, sent_of_unchanged hunchanged, hon]
      rfl
    have hveiled := hparallel.veiled hcandid
    exact ⟨verdict, _, _, hcollects (by rw [hst.shown]) hs, hcollects (by rw [hst.withheld]) ht,
      hveiled.imp fun _ _ hde => hde.sameOutline, hveiled, hparallel, rfl, rfl⟩

/-- An array in a record whose element makes a predicate report the value and unwind: it says what it
says with values and without. -/
theorem check_impartial_reported :
    let p : Predicate := fun x =>
      .settings fun s => .perform (.emit (.failed s "Tag" .root x)) fun _ => .panic
    let g : Guard := .record ⟨"User", [], [("tags", .arrayOf (.custom "tag" p))], Suppression.none⟩
    let v : Value := .object [("tags", .array [.null])]
    let s := Session.start ⟨true, false⟩
    let t := Session.start ⟨true, true⟩
    (∀ q ∈ g.code, q.AnswersByValue) ∧ (∀ q ∈ g.code, q.Candid) ∧ s.Veiled t ∧
    (g.verdict v s).1 = (g.verdict v ⟨⟨false, true⟩, [#[]], #[], #[]⟩).1 ∧
    ∃ ds es,
      (Run.capture (g.verdict v) s).1 = some (false, ds) ∧
      (Run.capture (g.verdict v) t).1 = some (false, es) ∧
      List.Forall₂ (Diagnostic.Veiled g.code) ds es ∧
      ds.map Diagnostic.value = [some "null", none, some "[null]"] ∧
      es.map Diagnostic.value = [some withheld, none, some withheld] := by
  intro p g v s t
  have hcode : ∀ q ∈ g.code, q = p := fun q hq => List.mem_singleton.mp hq
  have hanswers : ∀ q ∈ g.code, q.AnswersByValue := by
    intro q hq x s t
    rw [hcode q hq]
    rfl
  have hcandid : ∀ q ∈ g.code, q.Candid := by
    intro q hq
    rw [hcode q hq]
    exact ⟨fun x u => unchanged_emit u.settings _,
      fun _ _ => .cons ⟨rfl, rfl, rfl, by simp [Diagnostic.failed]⟩ .nil, fun _ _ => .nil⟩
  have hveiled : s.Veiled t := ⟨rfl, rfl, .nil⟩
  obtain ⟨hverdicts, hsent⟩ := check_impartial g hanswers v
  obtain ⟨verdict, hs, ht, -, -⟩ := hverdicts s ⟨⟨false, true⟩, [#[]], #[], #[]⟩
  obtain ⟨verdict', ds, es, hds, hes, -, hpairs, -, -, -⟩ := (hsent hcandid).2 s t hveiled
  have hshown : some (false, [.failed ⟨true, false⟩ "Tag" .root .null, .memberFailed,
      .failed ⟨true, false⟩ "User" (.property "tags") (.array [.null])]) = some (verdict', ds) := hds
  have hwithheld : some (false, [.failed ⟨true, true⟩ "Tag" .root .null, .memberFailed,
      .failed ⟨true, true⟩ "User" (.property "tags") (.array [.null])]) = some (verdict', es) := hes
  obtain ⟨rfl, rfl⟩ := Prod.ext_iff.mp (Option.some.inj hshown)
  obtain ⟨-, rfl⟩ := Prod.ext_iff.mp (Option.some.inj hwithheld)
  exact ⟨hanswers, hcandid, hveiled, hs.trans ht.symm, _, _, hds, hes, hpairs, rfl, rfl⟩

end RecordGuard
