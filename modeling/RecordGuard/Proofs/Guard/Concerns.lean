import RecordGuard.Proofs.Guard.Verdict

/-!
# Steps about separate concerns

The steps of a builder are about separate things: the whole candidate, single properties, and the
notices that are left out. An order among them is kept only by steps that are about the same thing,
and of the notices that are left out not even that. Everything else about the order in which steps
were taken is lost in the finished guard.

* **`SameSuppression`** — steps that leave out the same notices, all of them or those about the same
  properties.
* **`SameConcerns`** — steps that ask for the same, concern by concern.
* **`SameConcerns.plan_eq`** — the plan of a check is read off the concerns.
* **`recordGuard_order_unobservable`** — the headline.
-/

namespace RecordGuard

/-! ## Notices that are left out -/

namespace BuildStep

/-- Whether a step leaves out the notices about all properties. -/
def silencesAll : BuildStep → Bool
  | suppress keys => keys.isEmpty
  | suppressAll => true
  | _ => false

/-- The properties that a step lists to leave out the notices about them. -/
def silencedKeys : BuildStep → List String
  | suppress keys => keys
  | _ => []

theorem silences_eq (key : String) (st : BuildStep) :
    st.silences key = (st.silencesAll || st.silencedKeys.contains key) := by
  cases st <;> simp [silences, silencesAll, silencedKeys]

/-- Over many steps the two ways are collected apart: one step for all, or the keys of all steps. -/
theorem any_silences_eq (ss : List BuildStep) (key : String) :
    ss.any (silences key) =
      (ss.any silencesAll || (ss.flatMap silencedKeys).contains key) := by
  induction ss with
  | nil => rfl
  | cons st rest ih =>
    have hkeys : ((st :: rest).flatMap silencedKeys).contains key =
        (st.silencedKeys.contains key || (rest.flatMap silencedKeys).contains key) := by
      rw [List.flatMap_cons, Bool.eq_iff_iff]
      simp
    rw [List.any_cons, List.any_cons, ih, silences_eq, hkeys]
    -- the two ways come to stand beside each other by reordering the disjunction
    ac_rfl

end BuildStep

/-- Steps that leave out the same notices. -/
inductive SameSuppression (ss ss' : List BuildStep) : Prop where
  /-- Both leave out all of them, wherever a step says so and in whichever way. -/
  | all (h : ss.any BuildStep.silencesAll = true) (h' : ss'.any BuildStep.silencesAll = true)
  /-- Both list the same properties, in whatever order and however often. -/
  | keys (h : ss.any BuildStep.silencesAll = false) (h' : ss'.any BuildStep.silencesAll = false)
      (hkeys : ∀ key,
        key ∈ ss.flatMap BuildStep.silencedKeys ↔ key ∈ ss'.flatMap BuildStep.silencedKeys)

/-- Such steps leave out the notices of the same keys. -/
theorem SameSuppression.silences_eq {ss ss' : List BuildStep} (h : SameSuppression ss ss')
    (key : String) : ss.any (BuildStep.silences key) = ss'.any (BuildStep.silences key) := by
  rw [BuildStep.any_silences_eq, BuildStep.any_silences_eq]
  cases h with
  | all h h' => rw [h, h', Bool.true_or, Bool.true_or]
  | keys h h' hkeys =>
    rw [h, h', Bool.false_or, Bool.false_or, Bool.eq_iff_iff, List.contains_iff_mem,
      List.contains_iff_mem, hkeys]

/-! ## Concerns -/

/-- Steps that ask for the same: the same validators of the whole candidate in the same order, for
each property the same validators in the same order, and the same notices left out. -/
structure SameConcerns (ss ss' : List BuildStep) : Prop where
  roots : ss.filterMap BuildStep.root? = ss'.filterMap BuildStep.root?
  validators (key : String) :
    ss.filterMap (BuildStep.validator? key) = ss'.filterMap (BuildStep.validator? key)
  suppression : SameSuppression ss ss'

/-- No step registers a validator for any property if none does for each. -/
theorem all_key?_isNone_iff (ss : List BuildStep) :
    (ss.all fun st => st.key?.isNone) = true ↔
      ∀ key, ss.filterMap (BuildStep.validator? key) = [] := by
  have hstep : ∀ st : BuildStep, st.key?.isNone = true ↔ ∀ key, st.validator? key = none := by
    intro st
    cases st <;> simp [BuildStep.key?, BuildStep.validator?]
  simp only [List.all_eq_true, hstep, List.filterMap_eq_nil_iff]
  exact ⟨fun h key st hst => h st hst key, fun h st hst key => h key st hst⟩

namespace SameConcerns

variable {ss ss' : List BuildStep}

theorem isNoticed_eq (h : SameConcerns ss ss') (key : String) :
    isNoticed ss key = isNoticed ss' key := by
  rw [isNoticed, isNoticed, h.roots, h.validators, h.suppression.silences_eq]

theorem entryStops_eq (h : SameConcerns ss ss') (key : String) (x : Value) :
    entryStops ss key x = entryStops ss' key x := by
  rw [entryStops, entryStops, h.isNoticed_eq, propertyCalls, propertyCalls, h.validators]

/-- **The plan of a check is read off the concerns.** It goes through the candidate's own entries in
the candidate's order, and finds the stops at each under its key. -/
theorem plan_eq (h : SameConcerns ss ss') (v : Value) : plan ss v = plan ss' v := by
  unfold plan
  cases v.entries? with
  | none => rfl
  | some entries =>
    show (rootCalls ss v).map Stop.call ++ _ = (rootCalls ss' v).map Stop.call ++ _
    simp only [rootCalls, h.roots, h.entryStops_eq]

theorem queue_eq (h : SameConcerns ss ss') (v : Value) : queue ss v = queue ss' v := by
  rw [← callsOf_plan, ← callsOf_plan, h.plan_eq]

/-- The concerns tell the verdict where nothing is rejected. It looks at whether any step gives a key, which is
whether some property has a validator. -/
theorem verdictUnopposed_eq (h : SameConcerns ss ss') (v : Value) :
    verdictUnopposed ss v = verdictUnopposed ss' v := by
  have hkeys : (ss.all fun st => st.key?.isNone) = ss'.all fun st => st.key?.isNone := by
    rw [Bool.eq_iff_iff, all_key?_isNone_iff, all_key?_isNone_iff]
    exact forall_congr' fun key => by rw [h.validators]
  rw [verdictUnopposed, verdictUnopposed, h.roots, hkeys]

/-- The guards do the same on every value: their checks are one and the same program. -/
theorem check_eq (h : SameConcerns ss ss') (schema : String) (v : Value) :
    (recordGuard schema ss).check v = (recordGuard schema ss').check v := by
  rw [check_recordGuard, check_recordGuard, h.plan_eq, h.verdictUnopposed_eq]

end SameConcerns

/-! ## The headline -/

/-- **The order in which separate concerns are registered cannot be observed.** Let two sequences of
steps ask for the same, concern by concern. Then the guards that are built of them, put to the same
value in the same session, come to the same verdict and leave the same session, a capture around
them yields the same diagnostics in the same order, and they call the same validators in the same
order and go through the same steps. -/
theorem recordGuard_order_unobservable {ss ss' : List BuildStep} (h : SameConcerns ss ss')
    (schema : String) (v : Value) (s : Session) :
    let g := recordGuard schema ss
    let g' := recordGuard schema ss'
    g.verdict v s = g'.verdict v s ∧
      Run.capture (g.verdict v) s = Run.capture (g'.verdict v) s ∧
      upToRejection (queue ss v) s = upToRejection (queue ss' v) s ∧
      (g.check v).history s = (g'.check v).history s := by
  intro g g'
  -- one program for both, so all that is said of it below is said of one thing
  have hcheck : g.check v = g'.check v := h.check_eq schema v
  have hverdict : g.verdict v = g'.verdict v := congrArg Program.run hcheck
  refine ⟨?_, ?_, ?_, ?_⟩
  · rw [hverdict]
  · rw [hverdict]
  · rw [h.queue_eq]
  · rw [hcheck]

/-- Two ways to register an ignored property, one with two validators, and two suppressed ones. Both
guards pass over the suppressed property and stop at the second validator. -/
theorem recordGuard_order_unobservable_interleaved :
    let ss : List BuildStep :=
      [.suppress ["x"], .property "b" (.guard .number), .ignore "a", .suppress ["y"],
        .property "b" (.guard .string)]
    let ss' : List BuildStep :=
      [.ignore "a", .suppress ["y", "x", "y"], .property "b" (.guard .number),
        .property "b" (.guard .string)]
    let v : Value := .object [("x", .null), ("c", .null), ("b", .number Number.nan)]
    let s := Session.start .standard
    SameConcerns ss ss' ∧
      (Run.capture ((recordGuard "T" ss').verdict v) s).1 =
        some (false, [.missing "T" "c", .failed .standard "T" (.property "b") (.number Number.nan)]) ∧
      Run.capture ((recordGuard "T" ss).verdict v) s =
        Run.capture ((recordGuard "T" ss').verdict v) s := by
  intro ss ss' v s
  have hconcerns : SameConcerns ss ss' := by
    refine ⟨rfl, fun key => ?_, .keys rfl rfl fun key => ?_⟩
    · -- no key is both that of the ignored property and that of the validated one
      rcases eq_or_ne "a" key with rfl | ha
      · rfl
      · rcases eq_or_ne "b" key with rfl | hb
        · rfl
        · simp [ss, ss', List.filterMap_cons, BuildStep.validator?, ha, hb]
    · simp [ss, ss', BuildStep.silencedKeys, or_left_comm]
  exact ⟨hconcerns, rfl, (recordGuard_order_unobservable hconcerns "T" v s).2.1⟩

end RecordGuard
