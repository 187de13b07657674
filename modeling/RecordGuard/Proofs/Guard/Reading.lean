import RecordGuard.Proofs.Guard.Impartial
import RecordGuard.Proofs.Guard.Verdict

/-!
# Guards that decide

A guard made of nothing but the library comes to the same verdict wherever it is asked, and it is
silent about what it accepts.

* **`Program.Decides`** — a program accepts exactly if something holds; the rules follow the
  constructs that guards are made of.
* **`Guard.Reads`** — a guard without code of the caller's own accepts exactly the values of which
  something holds: `reads_kind`, `Reads.nullable`, `Reads.arrayOf`.
* **`Guard.capture_of_code_nil`** — a guard without code of the caller's own sees the settings of a
  session and nothing else.
* **`Guard.mem_code_record`**, **`emitted_transcript`** — the code in a record guard, and what a
  record that accepts has said.
-/

namespace RecordGuard

/-! ## Programs that decide -/

/-- From every session the program accepts exactly if `P` holds. Nothing is sent if it does, and
otherwise nothing but that an element of an array was rejected. -/
def Program.Decides (p : Program) (P : Prop) : Prop :=
  ∀ s, ∃ verdict, (p.run s).1 = some verdict ∧ (verdict = true ↔ P) ∧
    (P → emitted (p.history s) = []) ∧ ∀ d ∈ emitted (p.history s), d = .memberFailed

namespace Program.Decides

variable {p q r : Program} {P Q : Prop}

theorem congr (hp : p.Decides P) (hPQ : P ↔ Q) : p.Decides Q := by
  rwa [← propext hPQ]

theorem answer (verdict : Bool) : (Program.answer verdict).Decides (verdict = true) :=
  fun _ => ⟨verdict, rfl, Iff.rfl, fun _ => rfl, List.forall_mem_nil _⟩

theorem memberFailed : (Program.emitThen .memberFailed false).Decides False :=
  fun _ => ⟨false, rfl, by simp, False.elim, List.forall_mem_singleton.mpr rfl⟩

/-- A guard decides what its body does. -/
theorem ask (guard : String) (v : Value) (hp : p.Decides P) :
    (Program.ask guard v p .answer).Decides P := by
  intro s
  obtain ⟨verdict, hrun, hiff, hsilent, hsaid⟩ := hp s
  have hemitted : emitted ((Program.ask guard v p .answer).history s) = emitted (p.history s) := by
    rw [history_ask, emitted_append]
    exact List.append_nil _
  refine ⟨verdict, ?_, hiff, ?_, ?_⟩
  · rw [run_ask, hrun]
    rfl
  · rwa [hemitted]
  · rwa [hemitted]

/-- Going on after an acceptance, and rejecting after a rejection. -/
theorem bind_ite (hp : p.Decides P) (hq : q.Decides Q) (hr : r.Decides False) :
    (p.bind fun verdict => if verdict then q else r).Decides (P ∧ Q) := by
  intro s
  obtain ⟨first, hfirst, hiff, hsilent, hsaid⟩ := hp s
  rw [run_bind, history_bind, hfirst]
  -- a rejection leaves `r` to say what is said; an acceptance was silent
  cases first with
  | false =>
    obtain ⟨verdict, hrun, hiff', -, hsaid'⟩ := hr (p.run s).2
    have hP : ¬P := fun hP => Bool.false_ne_true (hiff.mpr hP)
    refine ⟨verdict, hrun, hiff'.trans (by simp [hP]), fun h => absurd h.1 hP, ?_⟩
    rw [emitted_append]
    exact List.forall_mem_append.mpr ⟨hsaid, hsaid'⟩
  | true =>
    obtain ⟨verdict, hrun, hiff', hsilent', hsaid'⟩ := hq (p.run s).2
    have hP : P := hiff.mp rfl
    rw [emitted_append, hsilent hP, List.nil_append]
    exact ⟨verdict, hrun, hiff'.trans (by simp [hP]), fun h => hsilent' h.2, hsaid'⟩

/-- Putting a predicate to many values decides whether it holds of all of them. -/
theorem onAll {p : Predicate} {P : Value → Prop} (hp : ∀ v, (p v).Decides (P v))
    (values : List Value) : (Predicate.onAll p values).Decides (∀ v ∈ values, P v) := by
  induction values with
  | nil => exact (answer true).congr (by simp)
  | cons v rest ih =>
    rw [List.forall_mem_cons]
    exact (hp v).bind_ite ih ((answer false).congr (by simp))

end Program.Decides

/-! ## Guards that decide -/

/-- The guard accepts exactly the values of which `P` holds, and all of it is of the library. -/
structure Guard.Reads (g : Guard) (P : Value → Prop) : Prop where
  decides (v : Value) : (g.check v).Decides (P v)
  code : g.code = []

namespace Guard

theorem Reads.congr {g : Guard} {P Q : Value → Prop} (hg : g.Reads P) (hPQ : ∀ v, P v ↔ Q v) :
    g.Reads Q :=
  ⟨fun v => (hg.decides v).congr (hPQ v), hg.code⟩

/-- **A guard of one kind** reads what is of that kind. -/
theorem reads_kind (k : Kind) : (kind k).Reads fun v => k.accepts v = true := by
  refine ⟨fun v => .ask k.label v ?_, rfl⟩
  unfold Kind.predicate
  split
  · -- a text that is read as a date: where it names none that is reported, which sends nothing
    next s =>
    unfold Kind.accepts
    cases hinstant : Instant.ofText? s with
    | some i => exact (Program.Decides.answer true).congr (by simp [Value.string?, hinstant])
    | none =>
      exact fun _ => ⟨false, rfl, by simp [Value.string?, hinstant], fun _ => rfl,
        List.forall_mem_nil _⟩
  · exact .answer _

theorem isAbsent_nil (v : Value) : v.isAbsent [] = true ↔ v = .null ∨ v = .undefined := by
  cases v <;> simp [Value.isAbsent, effectiveSentinels, defaultSentinels, Value.equal]

/-- **A nullable guard** reads the absent values as well. -/
theorem Reads.nullable {g : Guard} {P : Value → Prop} (hg : g.Reads P) :
    (g.nullable []).Reads fun v => (v = .null ∨ v = .undefined) ∨ P v := by
  refine ⟨fun v => .ask _ v ?_, hg.code⟩
  unfold nullableTest
  rw [← isAbsent_nil]
  cases habsent : v.isAbsent [] with
  | true => exact (Program.Decides.answer true).congr (by simp)
  | false => exact (hg.decides v).congr (by simp)

/-- **An array of guards** reads the arrays of which all elements are read. -/
theorem Reads.arrayOf {g : Guard} {P : Value → Prop} (hg : g.Reads P) :
    g.arrayOf.Reads fun v => ∃ items, v = .array items ∧ ∀ x ∈ items, P x := by
  refine ⟨fun v => .ask _ v ?_, hg.code⟩
  unfold arrayTest
  cases v with
  | array items =>
    exact ((Program.Decides.onAll hg.decides items).bind_ite (.answer true) .memberFailed).congr
      (by simp)
  | _ => exact (Program.Decides.answer false).congr (by simp)

end Guard

/-! ## Guards without code

Where nothing in a tree is the caller's own, nothing in it can read a mark that was left before; the
diagnostics of a record are all that the settings make a difference to. -/

/-- From sessions with the same settings, the same history: the settings are all that constructs look
at. -/
theorem concord_settings : Concord (fun s t => s.settings = t.settings) (fun h k => h = k) where
  alike hst hs ht := hs.settings.trans (hst.trans ht.settings.symm)
  nil := rfl
  append hhk hrest := by rw [hhk, hrest]
  answered _ _ _ hhk := by rw [hhk]
  bare _ _ := rfl
  reported _ _ := rfl
  rejected _ hst hhk _ _ _ := by rw [hhk, hst]

/-- From any two sessions, whatever the histories: what remains is that the verdicts agree. -/
theorem concord_any : Concord (fun _ _ => True) (fun _ _ => True) where
  alike _ _ _ := trivial
  nil := trivial
  append _ _ := trivial
  answered _ _ _ _ := trivial
  bare _ _ := trivial
  reported _ _ := trivial
  rejected _ _ _ _ _ _ := trivial

namespace Guard

variable {g : Guard}

/-- The verdict of such a guard depends on the value alone. -/
theorem verdict_of_code_nil (hcode : g.code = []) (v : Value) :
    ∃ verdict, ∀ s, (g.verdict v s).1 = some verdict := by
  -- any two sessions agree, so each agrees with the first one
  have hany : ∀ s t, ∃ verdict,
      (g.verdict v s).1 = some verdict ∧ (g.verdict v t).1 = some verdict := by
    intro s t
    obtain ⟨verdict, hs, ht, -, -⟩ := g.concur_self concord_any (by simp [hcode]) v (s := s) (t := t)
      trivial
    exact ⟨verdict, hs, ht⟩
  obtain ⟨verdict, hverdict, -⟩ := hany (Session.start .standard) (Session.start .standard)
  refine ⟨verdict, fun s => ?_⟩
  obtain ⟨_, hstart, hs⟩ := hany (Session.start .standard) s
  rw [hs, ← hstart, hverdict]

/-- What such a guard does depends on the value and the settings alone. -/
theorem history_of_code_nil (hcode : g.code = []) (v : Value) {s t : Session}
    (hst : s.settings = t.settings) : (g.check v).history s = (g.check v).history t := by
  obtain ⟨-, -, -, hhistory, -⟩ := g.concur_self concord_settings (by simp [hcode]) v hst
  exact hhistory

/-- A guard without code leaves the settings alone. -/
theorem settings_of_code_nil (hcode : g.code = []) (v : Value) (s : Session) :
    (g.verdict v s).2.settings = s.settings := by
  have hunchanged := g.unchanged_check (by simp [hcode]) (by simp [hcode]) v s
  rw [verdict, Program.run_session, Session.replay_eq]
  exact hunchanged.settingsAfter

/-- **A capture around such a guard yields the same from all sessions with the same settings**, and
the same verdict from all sessions. -/
theorem capture_of_code_nil (hcode : g.code = []) (settings : Settings) (v : Value) :
    ∃ passed ds, (∀ s, (g.verdict v s).1 = some passed) ∧
      ∀ s, s.settings = settings →
        Run.capture (g.verdict v) s = (some (passed, ds), (g.verdict v s).2) := by
  obtain ⟨passed, hverdict⟩ := verdict_of_code_nil hcode v
  refine ⟨passed, sent settings ((g.check v).history (Session.start settings)), hverdict, ?_⟩
  intro s hs
  have hhistory : (g.check v).history s = (g.check v).history (Session.start settings) :=
    history_of_code_nil hcode v hs
  have hrun : ((g.check v).run s).1 = some passed := hverdict s
  rw [verdict, (g.check v).traced.collects, hrun, hhistory, hs]
  rfl

/-! ## Records -/

/-- The code of some guards, one after the other. -/
theorem codeOfAll_eq_flatMap (gs : List Guard) : codeOfAll gs = gs.flatMap code := by
  induction gs with
  | nil => rfl
  | cons g rest ih => rw [codeOfAll, ih, List.flatMap_cons]

theorem codeOfProperties_eq_flatMap (properties : List (String × Guard)) :
    codeOfProperties properties = properties.flatMap fun entry => entry.2.code := by
  induction properties with
  | nil => rfl
  | cons entry rest ih => rw [codeOfProperties, ih, List.flatMap_cons]

theorem code_labelled (label : String) (g : Guard) :
    (Validator.labelled label (.guard g)).code = g.code := rfl

/-- **The code in a record guard is the code of its validators.** -/
theorem mem_code_record {schema : String} {ss : List BuildStep} {p : Predicate}
    (hp : p ∈ (recordGuard schema ss).code) :
    (∃ w ∈ ss.filterMap BuildStep.root?, p ∈ (w.labelled "root").code) ∨
      ∃ key, ∃ w ∈ ss.filterMap (BuildStep.validator? key), p ∈ (w.labelled key).code := by
  have hroots := Builder.roots_steps (Builder.start schema) ss
  have hvalidators := Builder.validators_steps (Builder.start schema) ss
  rw [recordGuard, Builder.guard, code] at hp
  -- all that is known of the builder is what it holds for its roots and for each key
  generalize (Builder.start schema).steps ss = r at hp hroots hvalidators
  obtain ⟨name, roots, properties, suppression⟩ := r
  rw [registryCode, codeOfAll_eq_flatMap, codeOfProperties_eq_flatMap] at hp
  rcases List.mem_append.mp hp with hroot | hproperty
  · obtain ⟨g, hg, hcode⟩ := List.mem_flatMap.mp hroot
    rw [show roots = _ from hroots] at hg
    obtain ⟨w, hw, rfl⟩ := List.mem_map.mp hg
    exact .inl ⟨w, hw, hcode⟩
  · obtain ⟨⟨key, g⟩, hg, hcode⟩ := List.mem_flatMap.mp hproperty
    have hmem : g ∈ Registry.validators ⟨name, roots, properties, suppression⟩ key :=
      List.mem_map.mpr ⟨(key, g), List.mem_filter.mpr ⟨hg, by simp⟩, rfl⟩
    rw [hvalidators key] at hmem
    obtain ⟨w, hw, rfl⟩ := List.mem_map.mp hmem
    exact .inr ⟨key, w, hw, hcode⟩

end Guard

theorem Call.accepts_iff {c : Call} {P : Prop} (hc : c.body.Decides P) (s : Session) :
    c.Accepts s ↔ P := by
  obtain ⟨verdict, hrun, hiff, -⟩ := hc s
  rw [Call.Accepts, hrun, Option.some.injEq, hiff]

/-- **What is said on a walk without a rejection**, where the calls are silent about what they
accept: the notices. -/
theorem emitted_transcript (schema : String) (stops : List Stop) (s : Session)
    (hall : AcceptedInTurn (callsOf stops) s)
    (hsilent : ∀ c ∈ callsOf stops, ∀ t, c.Accepts t → emitted (c.body.history t) = []) :
    emitted (transcript schema stops s) = (noticesOf stops).map (Diagnostic.missing schema) := by
  -- induction on the stops; all calls are accepted and so silent, and each notice is sent as it is
  -- passed
  induction stops generalizing s with
  | nil => rfl
  | cons stop rest ih =>
    cases stop with
    | call c =>
      rw [callsOf_call] at hall hsilent
      have hsteps : emitted (c.steps s) = [] := by
        rw [Call.steps, emitted_append]
        exact (List.append_nil _).trans (hsilent c List.mem_cons_self s hall.1)
      rw [transcript, if_pos hall.1, emitted_append, hsteps, List.nil_append]
      exact ih (c.after s) hall.2 fun c' hc' => hsilent c' (List.mem_cons_of_mem c hc')
    | notice key => exact congrArg (Diagnostic.missing schema key :: ·) (ih s hall hsilent)

/-- What is said on any walk: what the calls say, the notices, and the rejection of a call. -/
theorem mem_emitted_transcript {schema : String} {stops : List Stop} {s : Session} {d : Diagnostic}
    (hd : d ∈ emitted (transcript schema stops s)) :
    (∃ c ∈ callsOf stops, ∃ t, d ∈ emitted (c.body.history t)) ∨
      (∃ key ∈ noticesOf stops, d = .missing schema key) ∨
      ∃ c ∈ callsOf stops, ∃ settings, d = .failed settings schema c.target c.value := by
  induction stops generalizing s with
  | nil => exact absurd hd List.not_mem_nil
  | cons stop rest ih =>
    cases stop with
    | call c =>
      have hlater : ∀ {p : Call → Prop}, (∃ c' ∈ callsOf rest, p c') →
          ∃ c' ∈ callsOf (.call c :: rest), p c' :=
        fun ⟨c', hc', hp⟩ => ⟨c', List.mem_cons_of_mem c hc', hp⟩
      rw [transcript, emitted_append, List.mem_append] at hd
      -- said by the call itself, or behind it
      rcases hd with hcall | hafter
      · rw [Call.steps, emitted_append, List.mem_append] at hcall
        rcases hcall with hbody | hnone
        · exact .inl ⟨c, List.mem_cons_self, s, hbody⟩
        · exact absurd hnone List.not_mem_nil
      · -- behind an accepted call the walk goes on, behind another there is only its rejection
        split at hafter
        · exact (ih hafter).imp hlater (Or.imp_right hlater)
        · have hfailed := List.mem_singleton.mp hafter
          exact .inr (.inr ⟨c, List.mem_cons_self, _, hfailed⟩)
    | notice key =>
      rcases List.mem_cons.mp hd with hnow | hlater
      · exact .inr (.inl ⟨key, List.mem_cons_self, hnow⟩)
      · refine (ih hlater).imp id (Or.imp_left ?_)
        rintro ⟨key', hkey', hd'⟩
        exact ⟨key', List.mem_cons_of_mem key hkey', hd'⟩

/-- Where every call decides, turns do not matter. -/
theorem acceptedInTurn_iff_of_decides {calls : List Call}
    (hcalls : ∀ c ∈ calls, ∃ P, c.body.Decides P) (s : Session) :
    AcceptedInTurn calls s ↔ ∀ c ∈ calls, c.Accepts s := by
  refine acceptedInTurn_iff_forall calls (fun c hc t => ?_) s
  obtain ⟨P, hP⟩ := hcalls c hc
  rw [Call.accepts_iff hP, Call.accepts_iff hP]

/-- **A record whose validators all decide.** -/
theorem recordGuard_decides (schema : String) {ss : List BuildStep} {v : Value}
    (hqueue : ∀ c ∈ queue ss v, ∃ P, c.body.Decides P) (s : Session) :
    ∃ verdict, ((recordGuard schema ss).verdict v s).1 = some verdict ∧
      (verdict = true ↔ verdictUnopposed ss v = true ∧ ∀ c ∈ queue ss v, c.Accepts s) ∧
      (verdict = true → emitted (((recordGuard schema ss).check v).history s) =
        (noticesOf (plan ss v)).map (Diagnostic.missing schema)) := by
  obtain ⟨verdict, hverdict, hiff⟩ := verdict_record schema ss v s
  refine ⟨verdict, hverdict, ?_, fun haccepts => ?_⟩
  · rw [hiff, acceptedInTurn_iff_of_decides hqueue]
  · have hall : AcceptedInTurn (callsOf (plan ss v)) s := by
      rw [callsOf_plan]
      exact (hiff.mp haccepts).2
    have htranscript := emitted_transcript schema (plan ss v) s hall fun c hc t hct => by
      rw [callsOf_plan] at hc
      obtain ⟨P, hP⟩ := hqueue c hc
      obtain ⟨-, -, -, hsilent, -⟩ := hP t
      exact hsilent ((Call.accepts_iff hP t).mp hct)
    rw [history_record, emitted_append]
    exact (List.append_nil _).trans htranscript

end RecordGuard
