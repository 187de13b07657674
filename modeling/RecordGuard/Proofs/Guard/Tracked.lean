import Mathlib.Data.List.Induction
import Mathlib.Data.List.Nodup
import RecordGuard.Guard.Tracked
import RecordGuard.Proofs.Guard.Record
import RecordGuard.Proofs.Value.Fields

/-!
# What a tracked builder keeps account of

A tracked builder records twice which keys it was given: in a list of its own, from which it tells
what is missing, and in the registry of the guard in the making. The two records never part, and
apart from them a tracked builder is the untracked builder of the same steps.

* **`missed`** — the declared keys that some steps never give.
* **`TrackedBuilder.addressed_steps`, `TrackedBuilder.builder_steps`** — both records, after any steps.
* **`TrackedBuilder.missing_step`** — a step takes the key that it gives off the list of missing keys,
  and nothing else.
* **`trackedGuard`** — a whole run, from the first step to the guard or the refusal.
* **`tracked_coverage`**, **`tracked_guard_indistinguishable`** — the headlines.
-/

namespace RecordGuard

/-- The declared keys that some steps never give, in declaration order and with repetitions. -/
def missed (declared : List String) (ss : List BuildStep) : List String :=
  declared.filter fun key => key ∉ given ss

theorem missed_eq_nil {declared : List String} {ss : List BuildStep} :
    missed declared ss = [] ↔ ∀ key ∈ declared, key ∈ given ss := by
  simp [missed]

theorem given_concat (ss : List BuildStep) (st : BuildStep) :
    given (ss ++ [st]) = given ss ++ st.key?.toList := by
  rw [given, List.filterMap_append, ← given]
  cases h : st.key? <;> simp [h]

namespace TrackedBuilder

/-! ## Single steps -/

section

variable (t : TrackedBuilder) (key : String) (st : BuildStep)

@[simp] theorem builder_address : (t.address key).builder = t.builder := by
  unfold address
  split <;> rfl

@[simp] theorem declared_address : (t.address key).declared = t.declared := by
  unfold address
  split <;> rfl

theorem addressed_address :
    (t.address key).addressed = t.addressed ++ [key].filter fun k => !t.addressed.contains k := by
  unfold address
  split <;> simp_all

/-- **A step of a tracked builder is that step of the builder inside.** -/
theorem builder_step : (t.step st).builder = t.builder.step st := by
  cases st <;> simp [step, BuildStep.key?]

theorem declared_step : (t.step st).declared = t.declared := by
  cases st <;> simp [step, BuildStep.key?]

/-- A step addresses the key that it gives, unless it is addressed already. -/
theorem addressed_step :
    (t.step st).addressed =
      t.addressed ++ st.key?.toList.filter fun key => !t.addressed.contains key := by
  cases st <;> simp [step, BuildStep.key?, addressed_address]

end

theorem mem_addressed_step {t : TrackedBuilder} {st : BuildStep} {key : String} :
    key ∈ (t.step st).addressed ↔ key ∈ t.addressed ∨ st.key? = some key := by
  rw [addressed_step]
  by_cases hkey : key ∈ t.addressed <;> simp [hkey]

/-- **A step takes the key that it gives off the missing ones**, and leaves the rest as they stand. -/
theorem missing_step (t : TrackedBuilder) (st : BuildStep) :
    (t.step st).missing = t.missing.filter fun key => st.key? ≠ some key := by
  rw [missing, missing, declared_step, List.filter_filter]
  refine List.filter_congr fun key _ => ?_
  -- the two tests of a key are: not addressed after the step; not given by it, nor addressed before
  have hmem : key ∈ (t.step st).addressed ↔ key ∈ t.addressed ∨ st.key? = some key :=
    mem_addressed_step
  rw [Bool.eq_iff_iff]
  simp [hmem, and_comm]

/-- A step that gives no key, or one that is not declared, leaves all missing keys missing. -/
theorem missing_step_of_undeclared {t : TrackedBuilder} {st : BuildStep}
    (h : ∀ key, st.key? = some key → key ∉ t.declared) : (t.step st).missing = t.missing := by
  rw [missing_step, List.filter_eq_self]
  intro key hkey
  have hdeclared : key ∈ t.declared := (List.mem_filter.mp hkey).1
  exact decide_eq_true fun hgiven => h key hgiven hdeclared

/-! ## All steps -/

theorem builder_start (declared : List String) (schema : String) :
    (start declared schema).builder = Builder.start schema := rfl

/-- All steps of a tracked builder are those steps of the builder inside. -/
theorem builder_steps (t : TrackedBuilder) (ss : List BuildStep) :
    (t.steps ss).builder = t.builder.steps ss := by
  induction ss generalizing t with
  | nil => rfl
  | cons st rest ih => exact (ih (t.step st)).trans (congrArg (·.steps rest) (t.builder_step st))

theorem declared_steps (t : TrackedBuilder) (ss : List BuildStep) :
    (t.steps ss).declared = t.declared := by
  induction ss generalizing t with
  | nil => rfl
  | cons st rest ih => exact (ih (t.step st)).trans (t.declared_step st)

section

variable (declared : List String) (schema : String) (ss : List BuildStep)

/-- **The keys in the order in which they were first given.** -/
theorem addressed_steps :
    ((start declared schema).steps ss).addressed = (given ss).eraseDups := by
  -- keys come at the end, so the step to look at is the last
  induction ss using List.reverseRecOn with
  | nil => rfl
  | append_singleton ss st ih =>
    rw [steps, List.foldl_concat, ← steps, addressed_step, ih, given_concat]
    cases st.key? with
    | none => simp
    | some key =>
      rw [Option.toList_some, eraseDups_concat]
      by_cases hkey : key ∈ given ss <;> simp [hkey]

/-- No key is addressed twice. -/
theorem nodup_addressed_steps : ((start declared schema).steps ss).addressed.Nodup := by
  induction ss using List.reverseRecOn with
  | nil => exact List.nodup_nil
  | append_singleton ss st ih =>
    rw [steps, List.foldl_concat, ← steps, addressed_step]
    cases st.key? with
    | none => simpa using ih
    | some key =>
      by_cases hkey : key ∈ ((start declared schema).steps ss).addressed
      · simpa [hkey] using ih
      · simpa [hkey] using List.nodup_append_comm.mpr (List.nodup_cons.mpr ⟨hkey, ih⟩)

/-- **What is missing after all steps** is what the steps never give. -/
theorem missing_steps :
    ((start declared schema).steps ss).missing = missed declared ss := by
  rw [missing, missed, addressed_steps, declared_steps]
  refine List.filter_congr fun key _ => ?_
  simp

/-! ## Whole runs

The reports of a tracked builder change the session and nothing else. -/

/-- A step that is reported is still the step. -/
theorem stepReported_eq (t : TrackedBuilder) (st : BuildStep) (s : Session) :
    ∃ s', t.stepReported st s = (some (t.step st), s') := by
  unfold stepReported
  cases st.key? with
  | none => exact ⟨s, rfl⟩
  | some key =>
    dsimp only
    split
    · exact ⟨s.report (.undeclaredKey t.builder.schema key), rfl⟩
    · exact ⟨s, rfl⟩

/-- A run with its reports comes to the builder of the steps. -/
theorem foldlM_stepReported (t : TrackedBuilder) (ss : List BuildStep) (s : Session) :
    ∃ s', ss.foldlM stepReported t s = (some (t.steps ss), s') := by
  induction ss generalizing t s with
  | nil => exact ⟨s, rfl⟩
  | cons st rest ih =>
    obtain ⟨s₁, hstep⟩ := t.stepReported_eq st s
    obtain ⟨s₂, hrest⟩ := ih (t.step st) s₁
    refine ⟨s₂, ?_⟩
    rw [List.foldlM_cons, Run.bind_eq hstep]
    exact hrest

theorem build_eq (t : TrackedBuilder) (s : Session) : (t.build s).1 = some t.guard? := by
  unfold build
  cases t.guard? <;> rfl

/-- The guard, if the candidate is validated as a whole or no declared key is missed. -/
theorem guard?_steps :
    ((start declared schema).steps ss).guard? =
      if ss.filterMap BuildStep.root? = [] ∧ missed declared ss ≠ [] then
        .error ⟨schema, missed declared ss⟩
      else .ok (recordGuard schema ss) := by
  have hschema : ((Builder.start schema).steps ss).schema = schema := Builder.schema_steps _ ss
  have hroot : ((Builder.start schema).steps ss).hasRoot =
      !(ss.filterMap BuildStep.root?).isEmpty := Builder.hasRoot_steps _ ss
  rw [guard?, isCovered, isComplete, missing_steps, builder_steps, builder_start, hroot, hschema]
  by_cases hroots : ss.filterMap BuildStep.root? = [] <;>
    by_cases hmissed : missed declared ss = [] <;>
      simp [hroots, hmissed, recordGuard]

end

end TrackedBuilder

/-- A whole run of a tracked builder: the steps one after the other, and the guard or the refusal. -/
def trackedGuard (declared : List String) (schema : String) (ss : List BuildStep) :
    Run (Except Incomplete Guard) := do
  let t ← ss.foldlM TrackedBuilder.stepReported (TrackedBuilder.start declared schema)
  t.build

/-- A whole run comes to the guard of the steps, or to the refusal. -/
theorem trackedGuard_eq (declared : List String) (schema : String) (ss : List BuildStep)
    (s : Session) :
    (trackedGuard declared schema ss s).1 =
      some (if ss.filterMap BuildStep.root? = [] ∧ missed declared ss ≠ [] then
        .error ⟨schema, missed declared ss⟩
      else .ok (recordGuard schema ss)) := by
  -- the reports only change the session that the build finds
  obtain ⟨s', hsteps⟩ := (TrackedBuilder.start declared schema).foldlM_stepReported ss s
  rw [trackedGuard, Run.bind_eq hsteps, TrackedBuilder.build_eq, TrackedBuilder.guard?_steps]

/-- **What a tracked builder keeps account of.** Whatever the steps, the keys that were addressed are
those that were given, each once and in the order in which they first came, and they are the keys
that the guard in the making has validators for. The keys that are missing are the declared ones that
were never given, in declaration order and with their repetitions; a further step takes some of them
off the list, and none if it gives no declared key. The guard can be built if the candidate is
validated as a whole, and otherwise just if nothing is missing; the refusal names the schema and what
is missing. -/
theorem tracked_coverage (declared : List String) (schema : String) (ss : List BuildStep)
    (s : Session) :
    (∃ t : TrackedBuilder,
      (ss.foldlM TrackedBuilder.stepReported (TrackedBuilder.start declared schema) s).1 = some t ∧
        t.addressed = (given ss).eraseDups ∧ t.addressed.Nodup ∧ t.addressed = t.builder.keys ∧
        t.missing = missed declared ss ∧ (t.isComplete = true ↔ missed declared ss = []) ∧
        ∀ st, (t.step st).missing.Sublist t.missing ∧
          ((∀ key, st.key? = some key → key ∉ declared) → (t.step st).missing = t.missing)) ∧
    ∃ result, (trackedGuard declared schema ss s).1 = some result ∧
      (ss.filterMap BuildStep.root? ≠ [] → ∃ g, result = .ok g) ∧
      (ss.filterMap BuildStep.root? = [] →
        ((∃ g, result = .ok g) ↔ ∀ key ∈ declared, key ∈ given ss) ∧
        ∀ e, result = .error e ↔ missed declared ss ≠ [] ∧ e = ⟨schema, missed declared ss⟩) := by
  constructor
  · obtain ⟨s', hsteps⟩ := (TrackedBuilder.start declared schema).foldlM_stepReported ss s
    refine ⟨(TrackedBuilder.start declared schema).steps ss, by rw [hsteps],
      TrackedBuilder.addressed_steps declared schema ss,
      TrackedBuilder.nodup_addressed_steps declared schema ss, ?registered,
      TrackedBuilder.missing_steps declared schema ss, ?complete, fun st => ⟨?sublist, ?kept⟩⟩
    case registered =>
      rw [TrackedBuilder.addressed_steps, TrackedBuilder.builder_steps, Registry.keys,
        Builder.propertyKeys_steps]
      rfl
    case complete =>
      rw [TrackedBuilder.isComplete, TrackedBuilder.missing_steps, List.isEmpty_iff]
    case sublist =>
      rw [TrackedBuilder.missing_step]
      exact List.filter_sublist
    case kept =>
      intro hundeclared
      refine TrackedBuilder.missing_step_of_undeclared ?_
      rwa [TrackedBuilder.declared_steps]
  · refine ⟨_, trackedGuard_eq declared schema ss s, fun hroots => ?rooted, fun hroots => ?unrooted⟩
    case rooted => exact ⟨recordGuard schema ss, if_neg fun h => hroots h.1⟩
    case unrooted =>
      rw [← missed_eq_nil]
      by_cases hmissed : missed declared ss = []
      · simp [hmissed]
      · simp [hroots, hmissed, eq_comm]

/-- The account of a schema that declares a key twice, of which only an undeclared key and the other
declared one are given, the latter by ignoring it. -/
theorem tracked_coverage_repeated :
    let ss : List BuildStep := [.property "z" (.guard .number), .suppress ["x"], .ignore "y"]
    (ss.filterMap BuildStep.root? = [] ∧ missed ["x", "y", "x"] ss = ["x", "x"]) ∧
      (trackedGuard ["x", "y", "x"] "T" ss (Session.start .standard)).1 =
        some (.error ⟨"T", ["x", "x"]⟩) := by
  intro ss
  have hroots : ss.filterMap BuildStep.root? = [] := rfl
  have hmissed : missed ["x", "y", "x"] ss = ["x", "x"] := by decide
  refine ⟨⟨hroots, hmissed⟩, ?_⟩
  obtain ⟨-, result, hrun, -, hrefused⟩ :=
    tracked_coverage ["x", "y", "x"] "T" ss (Session.start .standard)
  have hresult : result = .error ⟨"T", ["x", "x"]⟩ :=
    ((hrefused hroots).2 _).mpr ⟨by simp [hmissed], by rw [hmissed]⟩
  rw [hrun, hresult]

/-- **A tracked guard cannot be told from the untracked one** of the same steps: it has the same
label, and put to the same value in the same session it comes to the same verdict, leaves the same
session, sends the same diagnostics and goes through the same steps. -/
theorem tracked_guard_indistinguishable {declared : List String} {schema : String}
    {ss : List BuildStep} {s : Session} {g : Guard}
    (h : (trackedGuard declared schema ss s).1 = some (.ok g)) (s' : Session) :
    ∃ untracked, (((Builder.start schema).steps ss).build s').1 = some untracked ∧
      g.label = untracked.label ∧
      ∀ v t,
        g.verdict v t = untracked.verdict v t ∧
        Run.capture (g.verdict v) t = Run.capture (untracked.verdict v) t ∧
        (g.check v).history t = (untracked.check v).history t := by
  have hbuilt : (((Builder.start schema).steps ss).build s').1 = some (recordGuard schema ss) := rfl
  -- a run that comes to a guard comes to this one
  have hguard : g = recordGuard schema ss := by
    rw [trackedGuard_eq] at h
    split at h
    · exact nomatch h
    · simpa using h.symm
  subst hguard
  exact ⟨_, hbuilt, rfl, fun v t => ⟨rfl, rfl, rfl⟩⟩

/-- A schema of which a key is never given, covered by a validator of the whole candidate between
other steps. -/
theorem tracked_guard_indistinguishable_covered :
    let ss : List BuildStep :=
      [.property "y" (.guard .number), .suppress [], .root (.guard .object), .ignore "z"]
    let s := Session.start .standard
    let g := recordGuard "T" ss
    (trackedGuard ["x", "y"] "T" ss s).1 = some (.ok g) ∧
      ∃ untracked, (((Builder.start "T").steps ss).build s).1 = some untracked ∧
        g.label = untracked.label ∧
        ∀ v t,
          g.verdict v t = untracked.verdict v t ∧
          Run.capture (g.verdict v) t = Run.capture (untracked.verdict v) t ∧
          (g.check v).history t = (untracked.check v).history t := by
  intro ss s g
  have hbuilds : (trackedGuard ["x", "y"] "T" ss s).1 = some (.ok g) := by
    rw [trackedGuard_eq]
    rfl
  exact ⟨hbuilds, tracked_guard_indistinguishable hbuilds s⟩

end RecordGuard
