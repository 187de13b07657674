import RecordGuard.Proofs.Guard.Builder
import RecordGuard.Proofs.Program.History

/-!
# What the check of a record comes to

A record guard is checked in nested loops: over the validators of the whole candidate, and over its
own entries with the validators of each. Seen from one candidate these come down to a flat list of
the places at which the check stops.

## The architecture

* **`Call`** — a validator put to a part of the candidate; **`Stop`** — a call or a notice.
* **`plan`** — the stops for a candidate; **`queue`** — the calls among them.
* **`walk`**, **`evaluate_eq_walk`** — the program that goes along some stops; the check of a record
  is a walk along the plan.
* **`AcceptedInTurn`**, **`transcript`** — the verdict and the history of a walk.
* **`verdict_record`**, **`history_record`** — the same for the guard of a builder.
-/

namespace RecordGuard

/-! ## The registry of a check -/

namespace Guard

theorem checkAll_eq_map (gs : List Guard) : checkAll gs = gs.map check := by
  induction gs with
  | nil => rfl
  | cons g rest ih => rw [checkAll, ih, List.map_cons]

theorem checkProperties_eq_map (properties : List (String × Guard)) :
    checkProperties properties = properties.map fun entry => (entry.1, entry.2.check) := by
  induction properties with
  | nil => rfl
  | cons entry rest ih => rw [checkProperties, ih, List.map_cons]

/-- The registry that a record is checked with, part by part. -/
theorem checkRegistry_eq (r : Registry Guard) :
    checkRegistry r =
      ⟨r.schema, r.roots.map check, r.properties.map fun entry => (entry.1, entry.2.check),
        r.suppression⟩ := by
  obtain ⟨schema, roots, properties, suppression⟩ := r
  rw [checkRegistry, checkAll_eq_map, checkProperties_eq_map]

theorem schema_checkRegistry (r : Registry Guard) : (checkRegistry r).schema = r.schema := by
  rw [checkRegistry_eq]

theorem roots_checkRegistry (r : Registry Guard) : (checkRegistry r).roots = r.roots.map check := by
  rw [checkRegistry_eq]

/-- Looking up a key and checking what is found there may change places. -/
theorem validators_checkRegistry (r : Registry Guard) (key : String) :
    (checkRegistry r).validators key = (r.validators key).map check := by
  rw [checkRegistry_eq, Registry.validators, Registry.validators, List.filter_map, List.map_map,
    List.map_map]
  rfl

theorem hasRoot_checkRegistry (r : Registry Guard) : (checkRegistry r).hasRoot = r.hasRoot := by
  rw [checkRegistry_eq, Registry.hasRoot, Registry.hasRoot, List.isEmpty_map]

theorem isSilent_checkRegistry (r : Registry Guard) (key : String) :
    (checkRegistry r).isSilent key = r.isSilent key := by
  rw [Registry.isSilent, Registry.isSilent, hasRoot_checkRegistry, checkRegistry_eq]

theorem acceptsEmpty_checkRegistry (r : Registry Guard) :
    (checkRegistry r).acceptsEmpty = (r.hasRoot || r.properties.isEmpty) := by
  rw [Registry.acceptsEmpty, hasRoot_checkRegistry, checkRegistry_eq, List.isEmpty_map]

end Guard

/-! ## Calls and stops -/

/-- A validator that is put to a part of the candidate. -/
structure Call where
  target : Target
  predicate : Predicate
  value : Value

namespace Call

/-- The label that the validator runs under. -/
def label (c : Call) : String := c.target.text

/-- The validator at work. -/
def body (c : Call) : Program := c.predicate c.value

/-- The validator accepts. One that unwinds does not. -/
def Accepts (c : Call) (s : Session) : Prop := (c.body.run s).1 = some true

instance (c : Call) (s : Session) : Decidable (c.Accepts s) :=
  inferInstanceAs (Decidable ((c.body.run s).1 = some true))

/-- The session that a call leaves. -/
def after (c : Call) (s : Session) : Session :=
  (c.body.run s).2.follow (.answered c.label (c.body.run s).1)

/-- The steps of a call. -/
def steps (c : Call) (s : Session) : List Step :=
  .asked c.label c.value :: c.body.history s ++ [.answered c.label (c.body.run s).1]

/-- **What a call leaves is told by its steps**: the session is the one that they lead to from where
the call began. -/
theorem after_eq (c : Call) (s : Session) : c.after s = s.replay (c.steps s) := by
  rw [after, steps, Session.replay_append, c.body.run_session]
  rfl

end Call

/-- A place at which the check of a record stops. -/
inductive Stop where
  | call (c : Call)
  /-- A property is passed that nothing validates. -/
  | notice (key : String)

/-- The calls among some stops. -/
def callsOf (stops : List Stop) : List Call :=
  stops.filterMap fun
    | .call c => some c
    | .notice _ => none

/-- The properties that some stops give notice of. -/
def noticesOf (stops : List Stop) : List String :=
  stops.filterMap fun
    | .call _ => none
    | .notice key => some key

theorem callsOf_call (c : Call) (rest : List Stop) :
    callsOf (.call c :: rest) = c :: callsOf rest := rfl

theorem callsOf_append (stops others : List Stop) :
    callsOf (stops ++ others) = callsOf stops ++ callsOf others :=
  List.filterMap_append

/-- Stops that are all calls lose nothing. -/
theorem callsOf_map (calls : List Call) : callsOf (calls.map .call) = calls := by
  induction calls with
  | nil => rfl
  | cons c rest ih => rw [List.map_cons, callsOf_call, ih]

/-- The calls of some stops are those at which they call. -/
theorem mem_callsOf {c : Call} {stops : List Stop} : c ∈ callsOf stops ↔ .call c ∈ stops := by
  rw [callsOf, List.mem_filterMap]
  constructor
  · rintro ⟨_ | _, hstop, hcall⟩ <;> cases hcall
    exact hstop
  · exact fun hc => ⟨.call c, hc, rfl⟩

theorem noticesOf_append (stops others : List Stop) :
    noticesOf (stops ++ others) = noticesOf stops ++ noticesOf others :=
  List.filterMap_append

theorem noticesOf_map (calls : List Call) : noticesOf (calls.map .call) = [] := by
  induction calls with
  | nil => rfl
  | cons c rest ih => exact ih

/-! ## The plan of a check -/

/-- The validators of the whole candidate, put to it. -/
def rootCalls (ss : List BuildStep) (v : Value) : List Call :=
  (ss.filterMap BuildStep.root?).map fun validator => ⟨.root, validator.predicate, v⟩

/-- The validators of a property, put to its value. -/
def propertyCalls (ss : List BuildStep) (key : String) (x : Value) : List Call :=
  (ss.filterMap (BuildStep.validator? key)).map fun validator =>
    ⟨.property key, validator.predicate, x⟩

/-- Whether a property gets a notice: nothing validates it or the whole candidate, and no step leaves
the notice out. -/
def isNoticed (ss : List BuildStep) (key : String) : Bool :=
  (ss.filterMap BuildStep.root?).isEmpty && (ss.filterMap (BuildStep.validator? key)).isEmpty &&
    !ss.any (BuildStep.silences key)

/-- The stops at an own entry. -/
def entryStops (ss : List BuildStep) (key : String) (x : Value) : List Stop :=
  if isNoticed ss key then [.notice key] else (propertyCalls ss key x).map .call

/-- The stops for a candidate. -/
def plan (ss : List BuildStep) (v : Value) : List Stop :=
  match v.entries? with
  | none => []
  | some entries =>
    (rootCalls ss v).map .call ++ entries.flatMap fun entry => entryStops ss entry.1 entry.2

/-- The calls for a candidate. -/
def queue (ss : List BuildStep) (v : Value) : List Call :=
  match v.entries? with
  | none => []
  | some entries => rootCalls ss v ++ entries.flatMap fun entry => propertyCalls ss entry.1 entry.2

/-- The verdict on a candidate of which no validator rejects anything. -/
def verdictUnopposed (ss : List BuildStep) (v : Value) : Bool :=
  match v.entries? with
  | none => false
  | some entries =>
    !entries.isEmpty || !(ss.filterMap BuildStep.root?).isEmpty || ss.all fun st => st.key?.isNone

/-- A notice takes no calls away: it is given only where there are none. -/
theorem callsOf_entryStops (ss : List BuildStep) (key : String) (x : Value) :
    callsOf (entryStops ss key x) = propertyCalls ss key x := by
  -- with a notice there are no validators for the key, so both sides are empty
  by_cases hnoticed : isNoticed ss key
  · have hnone : (ss.filterMap (BuildStep.validator? key)).isEmpty := by
      simp only [isNoticed, Bool.and_eq_true] at hnoticed
      exact hnoticed.1.2
    rw [entryStops, if_pos hnoticed, propertyCalls, List.isEmpty_iff.mp hnone]
    rfl
  · rw [entryStops, if_neg hnoticed, callsOf_map]

/-- An entry gives one notice, of its own key, or none. -/
theorem noticesOf_entryStops (ss : List BuildStep) (key : String) (x : Value) :
    noticesOf (entryStops ss key x) = if isNoticed ss key then [key] else [] := by
  by_cases hnoticed : isNoticed ss key
  · rw [entryStops, if_pos hnoticed, if_pos hnoticed]
    rfl
  · rw [entryStops, if_neg hnoticed, if_neg hnoticed, noticesOf_map]

theorem callsOf_flatMap_entryStops (ss : List BuildStep) (entries : Fields Value) :
    callsOf (entries.flatMap fun entry => entryStops ss entry.1 entry.2) =
      entries.flatMap fun entry => propertyCalls ss entry.1 entry.2 := by
  induction entries with
  | nil => rfl
  | cons entry rest ih =>
    rw [List.flatMap_cons, List.flatMap_cons, callsOf_append, callsOf_entryStops, ih]

/-- The notices of the entries are the keys that get one, in the order of the entries. -/
theorem noticesOf_flatMap_entryStops (ss : List BuildStep) (entries : Fields Value) :
    noticesOf (entries.flatMap fun entry => entryStops ss entry.1 entry.2) =
      entries.keys.filter (isNoticed ss) := by
  induction entries with
  | nil => rfl
  | cons entry rest ih =>
    have hkeys : Fields.keys (entry :: rest) = entry.1 :: Fields.keys rest := rfl
    rw [List.flatMap_cons, noticesOf_append, noticesOf_entryStops, ih, hkeys, List.filter_cons]
    split
    · rfl
    · rfl

/-- The calls of a plan are the queue. -/
theorem callsOf_plan (ss : List BuildStep) (v : Value) : callsOf (plan ss v) = queue ss v := by
  unfold plan queue
  cases v.entries? with
  | none => rfl
  | some entries =>
    show callsOf (_ ++ _) = _
    rw [callsOf_append, callsOf_map, callsOf_flatMap_entryStops]

/-! ## The walk

The loops over validators and over own entries are one walk: it goes along the stops, and leaves at
the first call that is not accepted. -/

/-- The program that goes along some stops. -/
def walk (schema : String) (unopposed : Bool) : List Stop → Program
  | [] => .answer unopposed
  | .call c :: rest =>
    .ask c.label c.value c.body fun verdict =>
      if verdict then walk schema unopposed rest else Registry.reject schema c.target c.value
  | .notice key :: rest =>
    .perform (.emit (.missing schema key)) fun _ => walk schema unopposed rest

/-- A validator under a new label is its predicate asked under that label, whatever label it had. -/
theorem check_labelled (validator : Validator) (label : String) (v : Value) :
    (validator.labelled label).check v = .ask label v (validator.predicate v) .answer := by
  cases validator <;> rfl

/-- Asking validators up to the first that rejects, and going on from there. -/
theorem bind_all_eq_walk (schema : String) (unopposed : Bool) (target : Target) (v : Value)
    (validators : List Validator) (rest : List Stop) :
    ((Predicate.all ((validators.map (Validator.labelled target.text)).map Guard.check) v).bind
        fun verdict =>
          if verdict then walk schema unopposed rest else Registry.reject schema target v) =
      walk schema unopposed
        ((validators.map fun validator => ⟨target, validator.predicate, v⟩).map .call ++ rest) := by
  induction validators with
  | nil => rfl
  | cons validator others ih =>
    simp only [List.map_cons, List.cons_append, Predicate.all, check_labelled, walk]
    -- both sides now ask the first validator, and they differ in what comes behind it
    refine congrArg (Program.ask _ _ _) (funext fun verdict => ?_)
    cases verdict with
    | false => rfl
    | true => exact ih

/-- Notices of a key are left out if the whole candidate is validated or a step leaves them out. -/
theorem isSilent_steps (schema : String) (ss : List BuildStep) (key : String) :
    ((Builder.start schema).steps ss).isSilent key =
      (!(ss.filterMap BuildStep.root?).isEmpty || ss.any (BuildStep.silences key)) := by
  rw [Registry.isSilent, Registry.hasRoot, Builder.roots_steps, Builder.suppresses_steps]
  simp [Builder.start, Registry.empty, Suppression.suppresses, Suppression.none]

theorem schema_check_steps (schema : String) (ss : List BuildStep) :
    (Guard.checkRegistry ((Builder.start schema).steps ss)).schema = schema := by
  rw [Guard.schema_checkRegistry, Builder.schema_steps]
  rfl

/-- The loop over own entries is a walk along their stops. -/
theorem entries_eq_walk (schema : String) (ss : List BuildStep) (unopposed : Bool)
    (fields : Fields Value) :
    (Guard.checkRegistry ((Builder.start schema).steps ss)).entries unopposed fields =
      walk schema unopposed (fields.flatMap fun entry => entryStops ss entry.1 entry.2) := by
  -- induction on the own entries; at each one the validators are walked and the rest follows behind
  induction fields with
  | nil => rfl
  | cons field rest ih =>
    obtain ⟨key, x⟩ := field
    have hvalidators : (Guard.checkRegistry ((Builder.start schema).steps ss)).validators key =
        ((ss.filterMap (BuildStep.validator? key)).map (Validator.labelled key)).map
          Guard.check := by
      rw [Guard.validators_checkRegistry, Builder.validators_steps]
      rfl
    have hall := bind_all_eq_walk schema unopposed (.property key) x
      (ss.filterMap (BuildStep.validator? key))
      (rest.flatMap fun entry => entryStops ss entry.1 entry.2)
    rw [List.flatMap_cons, Registry.entries, hvalidators, schema_check_steps,
      Guard.isSilent_checkRegistry, isSilent_steps, entryStops, propertyCalls, isNoticed, ih]
    cases hregistered : ss.filterMap (BuildStep.validator? key) with
    | nil =>
      -- no validator: a notice or nothing, as the two switches say
      cases (ss.filterMap BuildStep.root?).isEmpty <;>
        cases ss.any (BuildStep.silences key) <;> rfl
    | cons validator others =>
      rw [hregistered] at hall
      simp only [List.isEmpty_cons, Bool.and_false, Bool.false_and]
      exact hall

/-- **The check of a record is a walk along the plan.** -/
theorem evaluate_eq_walk (schema : String) (ss : List BuildStep) (v : Value) :
    (Guard.checkRegistry ((Builder.start schema).steps ss)).evaluate v =
      walk schema (verdictUnopposed ss v) (plan ss v) := by
  unfold Registry.evaluate plan verdictUnopposed
  -- what has no entries is rejected at once; an object walks the root validators, then its entries
  cases v.entries? with
  | none => rfl
  | some fields =>
    have hroots : (Guard.checkRegistry ((Builder.start schema).steps ss)).roots =
        ((ss.filterMap BuildStep.root?).map (Validator.labelled "root")).map Guard.check := by
      rw [Guard.roots_checkRegistry]
      exact congrArg (List.map Guard.check) (Builder.roots_steps _ ss)
    have hempty : (Guard.checkRegistry ((Builder.start schema).steps ss)).acceptsEmpty =
        (!(ss.filterMap BuildStep.root?).isEmpty || ss.all fun st => st.key?.isNone) := by
      rw [Guard.acceptsEmpty_checkRegistry, Registry.hasRoot, Builder.roots_steps,
        Builder.isEmpty_properties_steps]
      simp [Builder.start, Registry.empty]
    have hall := bind_all_eq_walk schema
      (!fields.isEmpty || !(ss.filterMap BuildStep.root?).isEmpty || ss.all fun st => st.key?.isNone)
      .root v (ss.filterMap BuildStep.root?)
      (fields.flatMap fun entry => entryStops ss entry.1 entry.2)
    simp only [schema_check_steps, hroots, hempty, entries_eq_walk, ← Bool.or_assoc]
    exact hall

/-! ## Verdict and history of a walk

What a walk itself does to the session on the way is to send notices, and these are not noticed by
the validators behind them. So the sessions in which the calls are made are told by the calls alone:
each is made in the session that those before it leave. -/

/-- Every call is accepted in its turn. -/
def AcceptedInTurn : List Call → Session → Prop
  | [], _ => True
  | c :: rest, s => c.Accepts s ∧ AcceptedInTurn rest (c.after s)

/-- The steps of a walk: those of the calls up to the first that is not accepted, the notices in
between, and the diagnostic of the rejection. -/
def transcript (schema : String) : List Stop → Session → List Step
  | [], _ => []
  | .call c :: rest, s =>
    c.steps s ++
      if c.Accepts s then transcript schema rest (c.after s)
      else [.did (.emit (.failed (c.after s).settings schema c.target c.value))]
  | .notice key :: rest, s => .did (.emit (.missing schema key)) :: transcript schema rest s

namespace Call

theorem getD_of_accepts {c : Call} {s : Session} (h : c.Accepts s) :
    (c.body.run s).1.getD false = true := by
  have hrun : (c.body.run s).1 = some true := h
  rw [hrun, Option.getD_some]

/-- A call that is not accepted hands on a rejection, also when it unwinds. -/
theorem getD_of_not_accepts {c : Call} {s : Session} (h : ¬c.Accepts s) :
    (c.body.run s).1.getD false = false := by
  -- no answer, a rejection, an acceptance
  rcases hrun : (c.body.run s).1 with _ | _ | _
  · rfl
  · rfl
  · exact absurd hrun h

end Call

/-- **A walk comes to a verdict**, and it is an acceptance when every call on the way is accepted in
its turn and nothing else stands against it. -/
theorem verdict_walk (schema : String) (unopposed : Bool) (stops : List Stop) (s : Session) :
    ∃ verdict, ((walk schema unopposed stops).run s).1 = some verdict ∧
      (verdict = true ↔ unopposed = true ∧ AcceptedInTurn (callsOf stops) s) := by
  -- induction on the stops, for every session that the walk may come to them in
  induction stops generalizing s with
  | nil => exact ⟨unopposed, rfl, by simp [callsOf, AcceptedInTurn]⟩
  | cons stop rest ih =>
    cases stop with
    | call c =>
      rw [walk, Program.run_ask, callsOf_call, AcceptedInTurn]
      -- an accepted call leads on into the session it leaves, the others end the walk
      by_cases haccepts : c.Accepts s
      · obtain ⟨verdict, hverdict, hiff⟩ := ih (c.after s)
        refine ⟨verdict, ?_, ?_⟩
        · rw [Call.getD_of_accepts haccepts]
          exact hverdict
        · rw [hiff]
          simp only [haccepts, true_and]
      · refine ⟨false, ?_, ?_⟩
        · rw [Call.getD_of_not_accepts haccepts]
          rfl
        · simp only [haccepts, Bool.false_eq_true, false_and, and_false]
    | notice key =>
      obtain ⟨verdict, hverdict, hiff⟩ := ih s
      -- the notice is only sent, so the walk goes on in a session like this one
      have halike : (s.emit (.missing schema key)).Alike s := .emit s (.missing schema key)
      refine ⟨verdict, ?_, hiff⟩
      exact (Program.verdict_alike _ halike).trans hverdict

/-- **The history of a walk is its transcript.** -/
theorem history_walk (schema : String) (unopposed : Bool) (stops : List Stop) (s : Session) :
    (walk schema unopposed stops).history s = transcript schema stops s := by
  induction stops generalizing s with
  | nil => rfl
  | cons stop rest ih =>
    cases stop with
    | call c =>
      rw [walk, Program.history_ask, transcript, Call.steps, List.append_assoc,
        List.singleton_append]
      by_cases haccepts : c.Accepts s
      · rw [Call.getD_of_accepts haccepts, if_pos haccepts]
        exact congrArg (_ ++ _ :: ·) (ih (c.after s))
      · rw [Call.getD_of_not_accepts haccepts, if_neg haccepts]
        rfl
    | notice key =>
      -- the transcript goes on from `s`, the walk from a session that is alike
      have halike : (s.emit (.missing schema key)).Alike s := .emit s (.missing schema key)
      have hrest : (walk schema unopposed rest).history (s.emit (.missing schema key)) =
          transcript schema rest s :=
        (Program.history_alike _ halike).trans (ih s)
      exact congrArg (Step.did _ :: ·) hrest

/-! ## The guard of a builder -/

/-- The guard that a builder makes of some steps. -/
def recordGuard (schema : String) (ss : List BuildStep) : Guard :=
  ((Builder.start schema).steps ss).guard

theorem check_recordGuard (schema : String) (ss : List BuildStep) (v : Value) :
    (recordGuard schema ss).check v =
      .ask schema v (walk schema (verdictUnopposed ss v) (plan ss v)) .answer := by
  rw [← evaluate_eq_walk, recordGuard, Builder.guard, Guard.check, Builder.schema_steps]
  rfl

/-- **The verdict of a record guard**: it accepts exactly if nothing stands against it and every call
of the queue is accepted in its turn. It always comes to a verdict. -/
theorem verdict_record (schema : String) (ss : List BuildStep) (v : Value) (s : Session) :
    ∃ verdict, ((recordGuard schema ss).verdict v s).1 = some verdict ∧
      (verdict = true ↔ verdictUnopposed ss v = true ∧ AcceptedInTurn (queue ss v) s) := by
  obtain ⟨verdict, hverdict, hiff⟩ := verdict_walk schema (verdictUnopposed ss v) (plan ss v) s
  refine ⟨verdict, ?_, ?_⟩
  · rw [Guard.verdict, check_recordGuard, Program.run_ask, hverdict]
    rfl
  · rw [hiff, callsOf_plan]

/-- **The history of a record guard** is the transcript of its plan, between the question and its
answer. -/
theorem history_record (schema : String) (ss : List BuildStep) (v : Value) (s : Session) :
    ((recordGuard schema ss).check v).history s =
      .asked schema v :: transcript schema (plan ss v) s ++
        [.answered schema ((recordGuard schema ss).verdict v s).1] := by
  obtain ⟨verdict, hverdict, -⟩ := verdict_walk schema (verdictUnopposed ss v) (plan ss v) s
  rw [Guard.verdict, check_recordGuard, Program.history_ask, Program.run_ask, history_walk,
    hverdict]
  rfl

end RecordGuard
