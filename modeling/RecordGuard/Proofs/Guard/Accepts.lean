import RecordGuard.Proofs.Guard.Reading

/-!
# The verdict of a guard without code

A guard in which nothing is the caller's own comes to the same verdict in every session. So its
verdict is a function of the value, and it can be read off the guard: one equation for each way of
making a guard of others.

* **`Guard.induction`** — induction over guards, with a hypothesis for each guard directly inside.
* **`Program.Yields`** — a program comes to the same verdict in every session; one rule for each
  construct.
* **`Guard.accepts`** — the verdict, as a function.
* **`Guard.accepts_nullable`, `Guard.accepts_arrayOf`, `Guard.accepts_record`** — the equations.
-/

namespace RecordGuard

/-! ## Induction -/

/-- Induction over guards. -/
theorem Guard.induction {motive : Guard → Prop} (kind : ∀ k, motive (kind k))
    (custom : ∀ label predicate, motive (custom label predicate))
    (named : ∀ label inner, motive inner → motive (named label inner))
    (nullable : ∀ base sentinels, motive base → motive (nullable base sentinels))
    (arrayOf : ∀ element, motive element → motive (arrayOf element))
    (record : ∀ registry : Registry Guard, (∀ g ∈ registry.roots, motive g) →
      (∀ e ∈ registry.properties, motive e.2) → motive (record registry))
    (g : Guard) : motive g :=
  -- guards stand in the lists of a registry, so it carries what holds of the members of both
  @Guard.rec motive
    (fun registry => (∀ g ∈ registry.roots, motive g) ∧ ∀ e ∈ registry.properties, motive e.2)
    (fun gs => ∀ g ∈ gs, motive g) (fun properties => ∀ e ∈ properties, motive e.2)
    (fun e => motive e.2) kind custom named nullable arrayOf
    (fun registry h => record registry h.1 h.2) (fun _ _ _ _ hroots hproperties =>
      ⟨hroots, hproperties⟩)
    (List.forall_mem_nil _) (fun _ _ hg hrest => List.forall_mem_cons.mpr ⟨hg, hrest⟩)
    (List.forall_mem_nil _) (fun _ _ he hrest => List.forall_mem_cons.mpr ⟨he, hrest⟩)
    (fun _ _ h => h) g

/-! ## Programs that yield a verdict -/

/-- The program comes to this verdict in every session. -/
def Program.Yields (p : Program) (verdict : Bool) : Prop := ∀ s, (p.run s).1 = some verdict

namespace Program.Yields

variable {p q r : Program} {a b : Bool}

theorem answer (verdict : Bool) : (Program.answer verdict).Yields verdict := fun _ => rfl

theorem perform (effect : Effect) (hp : p.Yields a) :
    (Program.perform effect fun _ => p).Yields a :=
  fun s => hp (s.perform effect)

theorem reject (schema : String) (target : Target) (v : Value) :
    (Registry.reject schema target v).Yields false :=
  fun _ => rfl

/-- A guard hands on what its body yields. -/
theorem ask (guard : String) (v : Value) (hp : p.Yields a) :
    (Program.ask guard v p .answer).Yields a := by
  intro s
  rw [run_ask, hp s]
  rfl

/-- Going on after an acceptance and rejecting otherwise yields the conjunction. -/
theorem bind_ite (hp : p.Yields a) (hq : q.Yields b) (hr : r.Yields false) :
    (p.bind fun verdict => if verdict then q else r).Yields (a && b) := by
  intro s
  rw [run_bind, hp s]
  -- after a rejection `q` is not run at all, so its session is not known
  cases a with
  | false => exact hr _
  | true => exact hq _

/-- Guards asked in order yield whether all of them accept. -/
theorem all {gs : List Guard} {v : Value} {f : Guard → Bool}
    (h : ∀ g ∈ gs, (g.check v).Yields (f g)) :
    (Predicate.all (gs.map Guard.check) v).Yields (gs.all f) := by
  induction gs with
  | nil => exact answer true
  | cons g rest ih =>
    rw [List.forall_mem_cons] at h
    exact h.1.bind_ite (ih h.2) (answer false)

/-- One guard put to many values yields whether it accepts all of them. -/
theorem onAll {p : Predicate} {f : Value → Bool} (h : ∀ v, (p v).Yields (f v))
    (values : List Value) : (Predicate.onAll p values).Yields (values.all f) := by
  induction values with
  | nil => exact answer true
  | cons v rest ih => exact (h v).bind_ite ih (answer false)

end Program.Yields

namespace Guard

/-- The verdict in a fresh session. -/
def accepts (g : Guard) (v : Value) : Bool :=
  (g.verdict v (Session.start .standard)).1.getD false

/-- **The verdict in any session.** -/
theorem yields_accepts {g : Guard} (hcode : g.code = []) (v : Value) :
    (g.check v).Yields (g.accepts v) := by
  obtain ⟨verdict, hverdict⟩ := verdict_of_code_nil hcode v
  have haccepts : g.accepts v = verdict := by
    rw [accepts, hverdict]
    rfl
  intro s
  rw [haccepts]
  exact hverdict s

/-- A guard that yields a verdict accepts accordingly. This is how the equations below are proved. -/
theorem accepts_of_yields {g : Guard} {v : Value} {verdict : Bool}
    (h : (g.check v).Yields verdict) : g.accepts v = verdict := by
  have hrun : (g.verdict v (Session.start .standard)).1 = some verdict := h _
  rw [accepts, hrun]
  rfl

/-! ## The code of a record -/

theorem code_record (registry : Registry Guard) :
    (record registry).code =
      registry.roots.flatMap code ++ registry.properties.flatMap fun e => e.2.code := by
  obtain ⟨schema, roots, properties, suppression⟩ := registry
  rw [code, registryCode, codeOfAll_eq_flatMap, codeOfProperties_eq_flatMap]

theorem code_record_eq_nil {registry : Registry Guard} :
    (record registry).code = [] ↔
      (∀ g ∈ registry.roots, g.code = []) ∧ ∀ e ∈ registry.properties, e.2.code = [] := by
  rw [code_record, List.append_eq_nil_iff, List.flatMap_eq_nil_iff, List.flatMap_eq_nil_iff]

/-- A validator found under a key is registered with that key. -/
theorem mem_properties_of_mem_validators {registry : Registry Guard} {key : String} {g : Guard}
    (hg : g ∈ registry.validators key) : (key, g) ∈ registry.properties := by
  obtain ⟨⟨k, g'⟩, hentry, rfl⟩ := List.mem_map.mp hg
  obtain ⟨hmem, hkey⟩ := List.mem_filter.mp hentry
  rwa [← of_decide_eq_true hkey]

/-! ## The equations -/

/-- A guard of one kind accepts what is of that kind. -/
theorem accepts_kind (k : Kind) (v : Value) : (kind k).accepts v = k.accepts v := by
  refine accepts_of_yields fun s => ?_
  obtain ⟨verdict, hrun, hiff, -⟩ := (reads_kind k).decides v s
  rw [hrun, Bool.eq_iff_iff.mpr hiff]

theorem accepts_named (label : String) {inner : Guard} (hcode : inner.code = []) (v : Value) :
    (named label inner).accepts v = inner.accepts v :=
  accepts_of_yields ((yields_accepts hcode v).ask label v)

/-- A sentinel is accepted, and everything else is left to the guard inside. -/
theorem accepts_nullable {base : Guard} (hcode : base.code = []) (sentinels : List Value)
    (v : Value) : (nullable base sentinels).accepts v = (v.isAbsent sentinels || base.accepts v) := by
  refine accepts_of_yields (Program.Yields.ask _ v ?_)
  unfold nullableTest
  -- a sentinel is answered at once, without the guard inside
  cases v.isAbsent sentinels with
  | true => exact .answer true
  | false => exact yields_accepts hcode v

/-- An array is accepted if its elements are, and nothing else is. -/
theorem accepts_arrayOf {element : Guard} (hcode : element.code = []) (v : Value) :
    (arrayOf element).accepts v = v.items?.any fun items => items.all element.accepts := by
  refine accepts_of_yields (Program.Yields.ask _ v ?_)
  unfold arrayTest
  cases v.items? with
  | none => exact .answer false
  | some items =>
    -- the acceptance behind the elements adds nothing, and a rejection is only reported
    have hitems := (Program.Yields.onAll (yields_accepts hcode) items).bind_ite (.answer true)
      (r := .emitThen .memberFailed false) (.perform _ (.answer false))
    rwa [Bool.and_true] at hitems

/-- Every validator that is registered for the key of an own entry accepts its value. -/
def acceptsEntries (registry : Registry Guard) (fields : Fields Value) : Bool :=
  fields.all fun e => (registry.validators e.1).all fun g => g.accepts e.2

/-- The loop over own entries, up to the verdict that it ends with. -/
theorem yields_entries {registry : Registry Guard} (hcode : (record registry).code = [])
    (last : Bool) (fields : Fields Value) :
    ((checkRegistry registry).entries last fields).Yields
      (acceptsEntries registry fields && last) := by
  induction fields with
  | nil => exact .answer last
  | cons entry rest ih =>
    obtain ⟨key, v⟩ := entry
    have hvalidators : ∀ g ∈ registry.validators key, (g.check v).Yields (g.accepts v) := by
      intro g hg
      exact yields_accepts
        ((code_record_eq_nil.mp hcode).2 _ (mem_properties_of_mem_validators hg)) v
    rw [acceptsEntries, List.all_cons, Bool.and_assoc, ← acceptsEntries, Registry.entries,
      validators_checkRegistry]
    cases hregistered : registry.validators key with
    | nil =>
      -- a notice or none: neither has a say in the verdict
      rw [List.map_nil, List.all_nil, Bool.true_and]
      dsimp only
      split
      · exact ih
      · exact ih.perform _
    | cons g others =>
      rw [hregistered] at hvalidators
      exact (Program.Yields.all hvalidators).bind_ite ih (.reject _ _ _)

/-- **The verdict of a record.** -/
theorem accepts_record {registry : Registry Guard} (hcode : (record registry).code = [])
    (v : Value) :
    (record registry).accepts v = v.entries?.any fun fields =>
      registry.roots.all (·.accepts v) && (acceptsEntries registry fields &&
        (!fields.isEmpty || (registry.hasRoot || registry.properties.isEmpty))) := by
  refine accepts_of_yields (Program.Yields.ask _ v ?_)
  unfold Registry.evaluate
  cases v.entries? with
  | none => exact .answer false
  | some fields =>
    have hroots : ∀ g ∈ registry.roots, (g.check v).Yields (g.accepts v) := by
      intro g hg
      exact yields_accepts ((code_record_eq_nil.mp hcode).1 g hg) v
    -- what is left when no entry is rejected: an object without entries may still be
    have hentries := yields_entries hcode
      (!fields.isEmpty || (checkRegistry registry).acceptsEmpty) fields
    rw [acceptsEmpty_checkRegistry] at hentries
    rw [roots_checkRegistry, acceptsEmpty_checkRegistry]
    exact (Program.Yields.all hroots).bind_ite hentries (.reject _ _ _)

end Guard

end RecordGuard
