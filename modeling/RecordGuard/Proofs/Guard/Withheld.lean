import RecordGuard.Proofs.Guard.Record
import RecordGuard.Proofs.Program.Mirror
import RecordGuard.Proofs.Schema.Faults

/-!
# Records that withhold values

A guard without records says of a value no more than its verdict and, for every array that it
rejects, that some element was rejected. A record that withholds values adds the names of its
properties. So two candidates about whose parts the validators say the same cannot be told apart
from what shows of their checks.

## The architecture

* **`Guard.outcome`** — the verdict of a guard and how often it says that an element was rejected.
* **`Program.Tells`**, **`Guard.Plain.exists_tells`** — from every session a guard without records
  shows that much and no more; the induction is on the guard.
* **`PropertySpec.plain_of_resolve`** — the guards of a schema file are of this sort.
* **`Stop.Mirrors`**, **`walk_mirrors`** — a walk that withholds values shows the same wherever its
  stops do, by induction on the stops.
* **`MirrorImages`**, **`recordGuard_mirrors`** — the same for the guard of a builder, on candidates
  that differ in what none of its validators shows.
-/

namespace RecordGuard

/-! ## Outcomes -/

/-- What a guard says of a value: its verdict, and how often it sends that some element of an array
was rejected. -/
def Guard.outcome (g : Guard) (v : Value) : Option (Bool × Nat) :=
  (Run.capture (g.verdict v) (Session.start .standard)).1.map fun (passed, ds) =>
    (passed, ds.count .memberFailed)

/-- The steps of so many rejected arrays. -/
def membersFailed (n : Nat) : List Step := List.replicate n (.did (.emit .memberFailed))

/-- From every session the program comes to this verdict, and nothing shows but so many rejected
arrays. -/
def Program.Tells (p : Program) (verdict : Bool) (n : Nat) : Prop :=
  ∀ s, (p.run s).1 = some verdict ∧ visible (p.history s) = membersFailed n

namespace Program.Tells

variable {p : Program} {verdict verdict' : Bool} {n m : Nat}

theorem answer (verdict : Bool) : (Program.answer verdict).Tells verdict 0 :=
  fun _ => ⟨rfl, rfl⟩

theorem memberFailed : (Program.emitThen .memberFailed false).Tells false 1 :=
  fun _ => ⟨rfl, rfl⟩

/-- A guard tells what its body tells: being asked and answering does not show. -/
theorem ask (guard : String) (v : Value) (hp : p.Tells verdict n) :
    (Program.ask guard v p .answer).Tells verdict n := by
  intro s
  obtain ⟨hrun, hvisible⟩ := hp s
  rw [run_ask, history_ask, hrun, visible_asked, hvisible]
  exact ⟨rfl, List.append_nil _⟩

/-- Programs in a row tell of the rejected arrays of both. -/
theorem bind {next : Bool → Program} (hp : p.Tells verdict n)
    (hnext : (next verdict).Tells verdict' m) : (p.bind next).Tells verdict' (n + m) := by
  intro s
  obtain ⟨hrun, hvisible⟩ := hp s
  obtain ⟨hrun', hvisible'⟩ := hnext (p.run s).2
  rw [run_bind, history_bind, hrun]
  refine ⟨hrun', ?_⟩
  rw [visible_append, hvisible, hvisible', membersFailed, membersFailed, membersFailed,
    List.replicate_append_replicate]

/-- Delivered, these steps are as many diagnostics. -/
theorem sent_membersFailed (n : Nat) :
    sent .standard (membersFailed n) = List.replicate n .memberFailed := by
  induction n with
  | zero => rfl
  | succ n ih => exact congrArg (Diagnostic.memberFailed :: ·) ih

/-- What a guard tells is its outcome. -/
theorem outcome_eq {g : Guard} {v : Value} (h : (g.check v).Tells verdict n) :
    g.outcome v = some (verdict, n) := by
  obtain ⟨hrun, hvisible⟩ := h (Session.start .standard)
  have hsent : sent .standard ((g.check v).history (Session.start .standard)) =
      List.replicate n .memberFailed := by
    rw [← sent_visible, hvisible, sent_membersFailed]
  rw [Guard.outcome, Guard.verdict, (g.check v).traced.collects, hrun]
  show some (verdict, List.count _ (sent .standard _)) = _
  rw [hsent, List.count_replicate_self]

/-- They change no settings. -/
theorem settingsAfter_membersFailed (settings : Settings) (n : Nat) :
    settingsAfter settings (membersFailed n) = settings := by
  induction n with
  | zero => rfl
  | succ n ih => exact ih

/-- Programs that tell the same show the same. -/
theorem mirrors {q : Program} (hp : p.Tells verdict n) (hq : q.Tells verdict n)
    (settings : Settings) : p.Mirrors settings q := by
  have hsettings : ∀ {r : Program}, r.Tells verdict n → ∀ {s : Session}, s.settings = settings →
      (r.run s).2.settings = settings := by
    intro r hr s hs
    rw [settings_run, (hr s).2, settingsAfter_membersFailed, hs]
  intro s t hs ht
  exact ⟨verdict, (hp s).1, (hq t).1, (hp s).2.trans (hq t).2.symm, hsettings hp hs,
    hsettings hq ht⟩

end Program.Tells

/-! ## Guards without records -/

/-- Guards of the library without records. -/
inductive Guard.Plain : Guard → Prop where
  | kind (k : Kind) : Plain (.kind k)
  | nullable {base : Guard} (hbase : Plain base) (sentinels : List Value) :
      Plain (.nullable base sentinels)
  | arrayOf {element : Guard} (helement : Plain element) : Plain (.arrayOf element)

/-- Elements are asked up to the first that is rejected. -/
theorem Program.exists_tells_onAll {p : Predicate} (hp : ∀ v, ∃ verdict n, (p v).Tells verdict n)
    (values : List Value) : ∃ verdict n, (Predicate.onAll p values).Tells verdict n := by
  induction values with
  | nil => exact ⟨true, 0, .answer true⟩
  | cons v rest ih =>
    obtain ⟨first, n, hfirst⟩ := hp v
    cases first with
    | false => exact ⟨false, n + 0, hfirst.bind (.answer false)⟩
    | true =>
      obtain ⟨verdict, m, hrest⟩ := ih
      exact ⟨verdict, n + m, hfirst.bind hrest⟩

/-- A text that names no date is reported in a trace, and that does not show. -/
theorem Kind.tells_predicate (k : Kind) (v : Value) : (k.predicate v).Tells (k.accepts v) 0 := by
  unfold Kind.predicate
  split
  · next s =>
    unfold Kind.accepts
    cases hinstant : Instant.ofText? s with
    | some i =>
      simp only [Value.string?, Option.bind_some, hinstant, Option.isSome_some]
      exact .answer true
    | none =>
      simp only [Value.string?, Option.bind_some, hinstant, Option.isSome_none]
      exact fun _ => ⟨rfl, visible_cons_of_not_isVisible rfl []⟩
  · exact .answer _

/-- **A guard without records tells its outcome and nothing else.** -/
theorem Guard.Plain.exists_tells {g : Guard} (hg : g.Plain) (v : Value) :
    ∃ verdict n, (g.check v).Tells verdict n := by
  induction hg generalizing v with
  | kind k => exact ⟨_, _, .ask k.label v (k.tells_predicate v)⟩
  | @nullable base hbase sentinels ih =>
    have htest : ∃ verdict n, (nullableTest sentinels base.check v).Tells verdict n := by
      unfold nullableTest
      split
      · exact ⟨true, 0, .answer true⟩
      · exact ih v
    obtain ⟨verdict, n, htells⟩ := htest
    exact ⟨verdict, n, htells.ask _ v⟩
  | @arrayOf element helement ih =>
    have htest : ∃ verdict n, (arrayTest element.check v).Tells verdict n := by
      unfold arrayTest
      split
      · exact ⟨false, 0, .answer false⟩
      · next items _ =>
        obtain ⟨verdict, n, hitems⟩ := Program.exists_tells_onAll ih items
        -- the array has a notice of its own, behind those of the element that is rejected
        cases verdict with
        | false => exact ⟨false, n + 1, hitems.bind .memberFailed⟩
        | true => exact ⟨true, n + 0, hitems.bind (.answer true)⟩
    obtain ⟨verdict, n, htells⟩ := htest
    exact ⟨verdict, n, htells.ask _ v⟩

/-- Where the outcomes are the same, the same shows. -/
theorem Guard.Plain.mirrors {g : Guard} (hg : g.Plain) {v w : Value}
    (houtcome : g.outcome v = g.outcome w) (settings : Settings) :
    (g.check v).Mirrors settings (g.check w) := by
  obtain ⟨verdict, n, hv⟩ := hg.exists_tells v
  obtain ⟨verdict', n', hw⟩ := hg.exists_tells w
  rw [hv.outcome_eq, hw.outcome_eq] at houtcome
  obtain ⟨rfl, rfl⟩ := Prod.mk.inj (Option.some.inj houtcome)
  exact hv.mirrors hw settings

/-! ## Guards of specs -/

/-- The guards that a kind names are of the library. -/
theorem plain_of_plainGuard? {kind : String} {g : Guard} (h : plainGuard? kind = some g) :
    g.Plain := by
  unfold plainGuard? at h
  split at h <;> cases h
  all_goals exact .kind _

/-- Being nullable brings no record in. -/
theorem PropertySpec.plain_wrap (nullable : Bool) {g : Guard} (hg : g.Plain) :
    (wrap nullable g).guard.Plain := by
  cases nullable with
  | false => exact hg
  | true => exact .nullable hg []

/-- Nor does being an array. -/
theorem Rule.plain_arrayGuard {element : Rule} (helement : element.guard.Plain) :
    element.arrayGuard.Plain := by
  cases element with
  | ignore => exact .kind .array
  | check g => exact .arrayOf helement

/-- No spec asks for a record inside a record. -/
theorem PropertySpec.plain_of_yields {spec : PropertySpec} {rule : Rule} (h : spec.Yields rule) :
    rule.guard.Plain := by
  induction h with
  | ignored hkind => exact .kind .any
  | plain hkind => exact plain_wrap _ (plain_of_plainGuard? hkind)
  | arrayOf hkind hitems _ ih => exact plain_wrap _ (Rule.plain_arrayGuard ih)
  | memberOf hkind hvalues => exact plain_wrap _ (.kind _)
  | keyOf hkind hvalues => exact plain_wrap _ (.kind _)

/-- **The guards of a schema file are plain.** -/
theorem PropertySpec.plain_of_resolve {spec : PropertySpec} {property : String} {rule : Rule}
    (h : spec.resolve property = .ok rule) : rule.guard.Plain := by
  have hcomes := spec.comesTo_resolve property
  rw [h] at hcomes
  exact plain_of_yields hcomes

/-! ## Walks that withhold values -/

/-- A rejection that withholds its value shows the same of every value. -/
theorem Registry.reject_mirrors {settings : Settings} (hredact : settings.redact = true)
    (schema : String) (target : Target) (v w : Value) :
    (Registry.reject schema target v).Mirrors settings (Registry.reject schema target w) := by
  -- under redaction the diagnostic carries the placeholder, not the text
  have hfailed : Diagnostic.failed settings schema target v =
      Diagnostic.failed settings schema target w := by
    rw [Diagnostic.failed, Diagnostic.failed, if_pos hredact, if_pos hredact]
  refine .ofSettings ?_
  rw [hfailed]
  exact .emit _ (.answer false)

/-- Stops at which the same shows. -/
inductive Stop.Mirrors (settings : Settings) : Stop → Stop → Prop where
  | call {c d : Call} (htarget : c.target = d.target) (hbody : c.body.Mirrors settings d.body) :
      Mirrors settings (.call c) (.call d)
  | notice (key : String) : Mirrors settings (.notice key) (.notice key)

/-- **Walks that withhold values show the same if their stops do.** -/
theorem walk_mirrors {settings : Settings} (hredact : settings.redact = true) (schema : String)
    (unopposed : Bool) {stops others : List Stop}
    (h : List.Forall₂ (Stop.Mirrors settings) stops others) :
    (walk schema unopposed stops).Mirrors settings (walk schema unopposed others) := by
  induction h with
  | nil => exact .answer unopposed
  | cons hstop _ ih =>
    cases hstop with
    | @call c d htarget hbody =>
      rw [walk, walk, Call.label, Call.label, htarget]
      refine .ask _ c.value d.value hbody fun verdict => ?_
      -- a rejection is the only place at which a walk looks at a value itself
      cases verdict with
      | false => exact Registry.reject_mirrors hredact schema d.target c.value d.value
      | true => exact ih
    | notice key => exact .emit _ ih

/-! ## The guard of a builder -/

/-- Values with the same own keys in the same order, and what they have under each of them related.
Values without own entries are so only among themselves. -/
def Value.Keywise (R : String → Value → Value → Prop) (v w : Value) : Prop :=
  Option.Rel (List.Forall₂ fun e e' => e.1 = e'.1 ∧ R e.1 e.2 e'.2) v.entries? w.entries?

namespace Value.Keywise

variable {R S : String → Value → Value → Prop} {v w : Value}

/-- A value is such to itself. -/
theorem refl (hR : ∀ key x, R key x x) (v : Value) : Keywise R v v := by
  unfold Keywise
  cases v.entries? with
  | none => exact .none
  | some entries => exact .some (List.forall₂_same.mpr fun e _ => ⟨rfl, hR e.1 e.2⟩)

/-- A weaker relation relates the same values. -/
theorem imp (hRS : ∀ key x y, R key x y → S key x y) (h : Keywise R v w) : Keywise S v w := by
  unfold Keywise at h ⊢
  generalize v.entries? = entries at h ⊢
  generalize w.entries? = others at h ⊢
  cases h with
  | none => exact .none
  | some h => exact .some (h.imp fun e e' he => ⟨he.1, hRS e.1 e.2 e'.2 he.2⟩)

end Value.Keywise

/-- Candidates with the same own keys in the same order, about whose parts the validators of these
steps show the same. -/
structure MirrorImages (settings : Settings) (ss : List BuildStep) (v w : Value) : Prop where
  root : ∀ validator ∈ ss.filterMap BuildStep.root?,
    (validator.predicate v).Mirrors settings (validator.predicate w)
  entries : Value.Keywise (fun key x y => ∀ validator ∈ ss.filterMap (BuildStep.validator? key),
    (validator.predicate x).Mirrors settings (validator.predicate y)) v w

namespace MirrorImages

variable {settings : Settings} {ss : List BuildStep} {v w : Value}

/-- Mirror images are both without entries or neither is, so the verdict without rejections is the
same. -/
theorem verdictUnopposed_eq (h : MirrorImages settings ss v w) :
    verdictUnopposed ss v = verdictUnopposed ss w := by
  have hentries := h.entries
  unfold Value.Keywise at hentries
  unfold verdictUnopposed
  generalize v.entries? = entries at hentries ⊢
  generalize w.entries? = others at hentries ⊢
  cases hentries with
  | none => rfl
  | some hentries => cases hentries <;> rfl

/-- The stops at the same validators, put to one part of either candidate. -/
theorem forall₂_calls {target : Target} {validators : List Validator} {x y : Value}
    (h : ∀ validator ∈ validators,
      (validator.predicate x).Mirrors settings (validator.predicate y)) :
    List.Forall₂ (Stop.Mirrors settings)
      ((validators.map fun validator => ⟨target, validator.predicate, x⟩).map .call)
      ((validators.map fun validator => ⟨target, validator.predicate, y⟩).map .call) := by
  simp only [List.map_map, List.forall₂_map_left_iff, List.forall₂_map_right_iff,
    List.forall₂_same]
  exact fun validator hvalidator => .call rfl (h validator hvalidator)

/-- **The plans of mirror images** stop at the same places. -/
theorem forall₂_plan (h : MirrorImages settings ss v w) :
    List.Forall₂ (Stop.Mirrors settings) (plan ss v) (plan ss w) := by
  have hroot := h.root
  have hentries := h.entries
  unfold Value.Keywise at hentries
  unfold plan
  generalize v.entries? = entries at hentries ⊢
  generalize w.entries? = others at hentries ⊢
  -- neither has own entries, or both have the same keys in the same order
  cases hentries with
  | none => exact .nil
  | some hentries =>
    refine List.rel_append (forall₂_calls hroot) (List.rel_flatMap hentries ?_)
    rintro ⟨key, x⟩ ⟨_, y⟩ ⟨rfl, hvalidators⟩
    show List.Forall₂ _ (entryStops ss key x) (entryStops ss key y)
    unfold entryStops
    split
    · exact .cons (.notice key) .nil
    · exact forall₂_calls hvalidators

end MirrorImages

/-- **Records that withhold values show the same of mirror images.** -/
theorem recordGuard_mirrors {settings : Settings} (hredact : settings.redact = true)
    (schema : String) {ss : List BuildStep} {v w : Value} (h : MirrorImages settings ss v w) :
    ((recordGuard schema ss).check v).Mirrors settings ((recordGuard schema ss).check w) := by
  rw [check_recordGuard, check_recordGuard, h.verdictUnopposed_eq]
  exact .ask schema v w (walk_mirrors hredact schema _ h.forall₂_plan) fun verdict => .answer verdict

end RecordGuard
