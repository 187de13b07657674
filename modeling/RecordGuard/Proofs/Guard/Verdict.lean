import Mathlib.Logic.Basic
import RecordGuard.Proofs.Guard.Record
import RecordGuard.Proofs.Value.OwnKeys

/-!
# The verdict of a record guard and the validators it calls

* **`upToRejection`**, **`conversation`** — the calls that are made, and their steps one after the
  other.
* **`quiet_transcript`** — the diagnostics aside, a walk is the conversation of the calls up to the
  first that is not accepted.
* **`acceptedInTurn_iff_forall`** — for validators whose verdict depends on the value alone, being
  accepted in turn is being accepted.
* **`record_accepts_iff`** — the headline: what a record guard accepts, and what it calls.
-/

namespace RecordGuard

/-! ## What is called -/

/-- The calls up to the first that is not accepted, that one included. -/
def upToRejection : List Call → Session → List Call
  | [], _ => []
  | c :: rest, s => c :: if c.Accepts s then upToRejection rest (c.after s) else []

/-- The steps of some calls, each made in the session that those before it leave. -/
def conversation : List Call → Session → List Step
  | [], _ => []
  | c :: rest, s => c.steps s ++ conversation rest (c.after s)

/-- A history without the diagnostics that are sent in it. -/
def quiet (h : List Step) : List Step :=
  h.filter fun
    | .did (.emit _) => false
    | _ => true

theorem quiet_append (h h' : List Step) : quiet (h ++ h') = quiet h ++ quiet h' :=
  List.filter_append h h'

theorem quiet_emit (d : Diagnostic) (h : List Step) : quiet (.did (.emit d) :: h) = quiet h := rfl

theorem quiet_asked (guard : String) (v : Value) (h : List Step) :
    quiet (.asked guard v :: h) = .asked guard v :: quiet h := rfl

/-- **What a walk does besides sending diagnostics is done by the calls**, up to the first that is
not accepted. -/
theorem quiet_transcript (schema : String) (stops : List Stop) (s : Session) :
    quiet (transcript schema stops s) = quiet (conversation (upToRejection (callsOf stops) s) s) := by
  induction stops generalizing s with
  | nil => rfl
  | cons stop rest ih =>
    cases stop with
    | call c =>
      rw [callsOf_call, upToRejection, conversation, transcript, quiet_append, quiet_append]
      by_cases haccepts : c.Accepts s
      · rw [if_pos haccepts, if_pos haccepts, ih]
      · -- the walk ends here, with a diagnostic of its own
        rw [if_neg haccepts, if_neg haccepts]
        rfl
    | notice key =>
      rw [transcript, quiet_emit]
      exact ih s

/-! ## Acceptance

A candidate without own entries is the one case that the validators do not decide by themselves. -/

/-- **What stands against a candidate besides its validators**: not being object-like, or having no
entries where only properties are validated. -/
theorem verdictUnopposed_iff (ss : List BuildStep) (v : Value) :
    verdictUnopposed ss v = true ↔
      v.isObjectLike = true ∧
        ¬(v.entries? = some [] ∧ ss.filterMap BuildStep.root? = [] ∧
          ∃ st ∈ ss, st.key?.isSome = true) := by
  have hkeys : (ss.all fun st => st.key?.isNone) = true ↔
      ¬∃ st ∈ ss, st.key?.isSome = true := by
    simp
  -- to be object-like is to have own entries, be there any or none
  rw [v.isObjectLike_eq_isSome]
  unfold verdictUnopposed
  cases v.entries? with
  | none => simp
  | some entries =>
    rw [Bool.or_eq_true, Bool.or_eq_true, hkeys]
    simp only [Option.isSome_some, true_and, Option.some.injEq, Bool.not_eq_true',
      List.isEmpty_eq_false_iff, not_and_or, or_assoc, ne_eq]

/-- **Turns do not matter** to validators whose verdict depends on the value alone: what one leaves
makes no difference to the next. -/
theorem acceptedInTurn_iff_forall {accepts : Call → Prop} (calls : List Call)
    (hstable : ∀ c ∈ calls, ∀ t, c.Accepts t ↔ accepts c) (s : Session) :
    AcceptedInTurn calls s ↔ ∀ c ∈ calls, accepts c := by
  induction calls generalizing s with
  | nil => simp [AcceptedInTurn]
  | cons c rest ih =>
    rw [AcceptedInTurn, hstable c List.mem_cons_self,
      ih (fun c hc => hstable c (List.mem_cons_of_mem _ hc)), List.forall_mem_cons]

theorem forall_mem_rootCalls {accepts : Call → Prop} (ss : List BuildStep) (v : Value) :
    (∀ c ∈ rootCalls ss v, accepts c) ↔
      ∀ p ∈ ss.filterMap BuildStep.root?, accepts ⟨.root, p.predicate, v⟩ :=
  List.forall_mem_map

theorem forall_mem_propertyCalls {accepts : Call → Prop} (ss : List BuildStep) (key : String)
    (x : Value) :
    (∀ c ∈ propertyCalls ss key x, accepts c) ↔
      ∀ p ∈ ss.filterMap (BuildStep.validator? key), accepts ⟨.property key, p.predicate, x⟩ :=
  List.forall_mem_map

/-- Over all calls for a candidate: those of the whole, and those of each own entry. -/
theorem forall_mem_queue {accepts : Call → Prop} (ss : List BuildStep) {v : Value}
    {entries : Fields Value} (hentries : v.entries? = some entries) :
    (∀ c ∈ queue ss v, accepts c) ↔
      (∀ p ∈ ss.filterMap BuildStep.root?, accepts ⟨.root, p.predicate, v⟩) ∧
      ∀ e ∈ entries, ∀ p ∈ ss.filterMap (BuildStep.validator? e.1),
        accepts ⟨.property e.1, p.predicate, e.2⟩ := by
  rw [queue, hentries]
  simp only [List.forall_mem_append, forall_mem_rootCalls, List.forall_mem_flatMap,
    forall_mem_propertyCalls]

/-! ## The headline -/

/-- **What a record guard accepts, and what it calls.** Let a guard be built of any steps in any
order. On every value it comes to a verdict, and it accepts exactly the object-like values of which
every validator of the whole and, for every own entry, every validator of its key accepts its part in
its turn; but for a value without own entries, where some property has validators and the whole has
none. A validator that unwinds does not accept. If no validator's verdict depends on anything but the
value, turns do not matter.

What is called is the calls of the queue, validators of the whole first and then the validators of
each own entry in order, up to the first that is not accepted: the steps of the check are theirs, but
for the diagnostics. -/
theorem record_accepts_iff (schema : String) (ss : List BuildStep) (v : Value) (s : Session) :
    ∃ verdict,
      ((recordGuard schema ss).verdict v s).1 = some verdict ∧
      (verdict = true ↔
        v.isObjectLike = true ∧ AcceptedInTurn (queue ss v) s ∧
          ¬(v.entries? = some [] ∧ ss.filterMap BuildStep.root? = [] ∧
            ∃ st ∈ ss, st.key?.isSome = true)) ∧
      (∀ accepts : Predicate → Value → Prop,
        (∀ c ∈ queue ss v, ∀ t, c.Accepts t ↔ accepts c.predicate c.value) →
        (verdict = true ↔
          ∃ entries, v.entries? = some entries ∧
            (∀ p ∈ ss.filterMap BuildStep.root?, accepts p.predicate v) ∧
            (∀ e ∈ entries, ∀ p ∈ ss.filterMap (BuildStep.validator? e.1),
              accepts p.predicate e.2) ∧
            ¬(entries = [] ∧ ss.filterMap BuildStep.root? = [] ∧
              ∃ st ∈ ss, st.key?.isSome = true))) ∧
      quiet (((recordGuard schema ss).check v).history s) =
        .asked schema v :: quiet (conversation (upToRejection (queue ss v) s) s) ++
          [.answered schema (some verdict)] := by
  obtain ⟨verdict, hverdict, hiff⟩ := verdict_record schema ss v s
  -- the walk accepts when nothing stands against the candidate and all calls are accepted
  have haccepts : verdict = true ↔
      v.isObjectLike = true ∧ AcceptedInTurn (queue ss v) s ∧
        ¬(v.entries? = some [] ∧ ss.filterMap BuildStep.root? = [] ∧
          ∃ st ∈ ss, st.key?.isSome = true) := by
    rw [hiff, verdictUnopposed_iff, and_right_comm, and_assoc]
  refine ⟨verdict, hverdict, haccepts, fun accepts hstable => ?_, ?_⟩
  · -- stable validators: acceptance in turn becomes acceptance, and the queue is taken apart
    rw [haccepts, acceptedInTurn_iff_forall (queue ss v) hstable, v.isObjectLike_eq_isSome]
    cases hentries : v.entries? with
    | none => simp
    | some entries =>
      rw [forall_mem_queue ss hentries]
      simp only [Option.isSome_some, true_and, Option.some.injEq, exists_eq_left', and_assoc]
  · rw [history_record, hverdict, quiet_append, quiet_asked, quiet_transcript, callsOf_plan]
    rfl

end RecordGuard
