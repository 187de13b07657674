import RecordGuard.Proofs.Guard.Notices
import RecordGuard.Proofs.Guard.Reading
import RecordGuard.Schema.Resolve

/-!
# What a schema file means

A schema file can be read without the guards that are made of it: it says of every value whether it
conforms, and of every property whether a notice is due. This module states that reading and shows
that the guard of the file follows it.

## The architecture

* **`OfKind`**, **`PropertySpec.Accepts`**, **`SchemaFile.Accepts`**, **`SchemaFile.notices`** — the
  reading.
* **`PropertySpec.reads_resolve`** — by induction on the spec, the guard of its rule reads it.
* **`SchemaFile.FollowedBy`**, **`SchemaFile.followedBy_of_builder`** — a file that builds comes down
  to steps of a builder that do what it says.
* **`SchemaFile.guard_reads_file`** — the headline.
-/

namespace RecordGuard

/-! ## The reading -/

/-- The values of the kinds that need no options. -/
def OfKind (kind : String) (v : Value) : Prop :=
  match kind with
  | "string" => ∃ s, v = .string s
  | "number" => ∃ n, v = .number n
  | "boolean" => ∃ b, v = .bool b
  | "object" => (∃ fields, v = .object fields) ∨ (∃ items, v = .array items) ∨ ∃ i, v = .date i
  | "date" => ∃ i, v = .date (some i)
  | "date-string" => ∃ s i, v = .string s ∧ Instant.ofText? s = some i
  | "array" => ∃ items, v = .array items
  | _ => False

namespace PropertySpec

def kind : PropertySpec → String
  | bare kind => kind
  | detailed kind _ _ _ => kind

def nullable : PropertySpec → Bool
  | bare _ => false
  | detailed _ nullable _ _ => nullable

def items? : PropertySpec → Option PropertySpec
  | bare _ => none
  | detailed _ _ items _ => items

def values? : PropertySpec → Option (Fields Json)
  | bare _ => none
  | detailed _ _ _ values => values

/-- The values that a spec accepts. -/
@[mk_iff]
inductive Accepts : PropertySpec → Value → Prop where
  | unconstrained {spec : PropertySpec} {v : Value}
      (hkind : spec.kind = "ignore" ∨ spec.kind = "any") : Accepts spec v
  | absent {spec : PropertySpec} {v : Value} (hnullable : spec.nullable = true)
      (hv : v = .null ∨ v = .undefined) : Accepts spec v
  | ofKind {spec : PropertySpec} {v : Value} (hv : OfKind spec.kind v) : Accepts spec v
  | arrayOf {spec items : PropertySpec} {xs : List Value} (hkind : spec.kind = "array-of")
      (hitems : spec.items? = some items) (hxs : ∀ x ∈ xs, Accepts items x) :
      Accepts spec (.array xs)
  | memberOf {spec : PropertySpec} {v : Value} {values : Fields Json} {key : String} {j : Json}
      (hkind : spec.kind = "member-of") (hvalues : spec.values? = some values)
      (hj : (key, j) ∈ values) (hequal : (Value.ofJson j).equal v = true) : Accepts spec v
  | keyOf {spec : PropertySpec} {key : String} {values : Fields Json}
      (hkind : spec.kind = "key-of") (hvalues : spec.values? = some values)
      (hkey : key ∈ values.keys) : Accepts spec (.string key)

end PropertySpec

namespace SchemaFile

/-- The specs that are listed under a key. -/
def specs (f : SchemaFile) (key : String) : List PropertySpec :=
  (f.properties.filter (·.1 = key)).map (·.2)

/-- The values that conform to a file. -/
structure Accepts (f : SchemaFile) (v : Value) : Prop where
  candidate : v.isObjectLike = true
  root : ∀ spec, f.root = some spec → spec.Accepts v
  properties : ∀ entries, v.entries? = some entries →
    ∀ e ∈ entries, ∀ spec ∈ f.specs e.1, spec.Accepts e.2
  /-- Where no spec says anything about the whole, there is something to check. -/
  occupied : ¬(v.entries? = some [] ∧ f.root = none ∧ f.properties ≠ [])

/-- Whether the file leaves out the notice about a property. -/
def suppresses (f : SchemaFile) (key : String) : Bool :=
  match f.suppressMissing with
  | some (.all suppressed) => suppressed
  | some (.keys keys) => keys.isEmpty || keys.contains key
  | none => false

/-- Whether a notice about a property is due: the file lists neither the property nor a spec for the
whole, and wants to hear of it. -/
def notices (f : SchemaFile) (key : String) : Bool :=
  f.root.isNone && (f.specs key).isEmpty && !f.suppresses key

end SchemaFile

/-! ## Rules of specs -/

/-- The guard that a rule comes to. -/
def Rule.guard : Rule → Guard
  | ignore => .any
  | check g => g

theorem reads_any : Guard.any.Reads fun _ => True :=
  (Guard.reads_kind .any).congr fun _ => by simp [Kind.accepts]

theorem reads_array : Guard.array.Reads fun v => ∃ items, v = .array items :=
  (Guard.reads_kind .array).congr fun v => by cases v <;> simp [Kind.accepts, Value.items?]

/-- The guards of kinds that need no options read these. -/
theorem reads_plainGuard {kind : String} {g : Guard} (h : plainGuard? kind = some g) :
    g.Reads (OfKind kind) := by
  unfold plainGuard? at h
  split at h <;> cases h
  · refine (Guard.reads_kind .string).congr fun v => ?_
    cases v <;> simp [Kind.accepts, Value.string?, OfKind]
  · refine (Guard.reads_kind .number).congr fun v => ?_
    cases v <;> simp [Kind.accepts, Value.number?, OfKind]
  · refine (Guard.reads_kind .boolean).congr fun v => ?_
    cases v <;> simp [Kind.accepts, Value.bool?, OfKind]
  · refine (Guard.reads_kind .object).congr fun v => ?_
    cases v <;> simp [Kind.accepts, Value.isObjectLike, OfKind]
  · refine (Guard.reads_kind .date).congr fun v => ?_
    cases v <;> simp [Kind.accepts, Value.instant?, OfKind, Option.isSome_iff_exists]
  · refine (Guard.reads_kind .dateString).congr fun v => ?_
    cases v <;> simp [Kind.accepts, Value.string?, OfKind, Option.isSome_iff_exists]
  · exact reads_array

/-- Fields become values one by one, under the same keys. -/
theorem Value.ofJsonFields_eq_map (fields : Fields Json) :
    Value.ofJsonFields fields = fields.map fun field => (field.1, Value.ofJson field.2) := by
  induction fields with
  | nil => rfl
  | cons field rest ih => rw [Value.ofJsonFields, ih, List.map_cons]

/-- **An enumeration of values** reads what one of them equals. -/
theorem reads_memberOf (values : Fields Json) :
    (Guard.memberOf (.ofJsonFields values)).Reads fun v =>
      ∃ key j, (key, j) ∈ values ∧ (Value.ofJson j).equal v = true := by
  refine (Guard.reads_kind _).congr fun v => ?_
  simp [Kind.accepts, Enumeration.values, Enumeration.ofJsonFields, Value.ofJsonFields_eq_map]

/-- **An enumeration of keys** reads the texts that are one of them. -/
theorem reads_keyOf (values : Fields Json) :
    (Guard.keyOf (.ofJsonFields values)).Reads fun v =>
      ∃ key, v = .string key ∧ key ∈ values.keys := by
  have hkeys : (Enumeration.ofJsonFields values).keys = values.keys := by
    rw [Enumeration.keys, Enumeration.ofJsonFields, Value.ofJsonFields_eq_map, List.map_map]
    rfl
  refine (Guard.reads_kind _).congr fun v => ?_
  rw [hkeys]
  cases v <;> simp [Kind.accepts, Value.string?]

/-- An array whose elements follow a rule. An array of what is ignored is an array of anything. -/
theorem Rule.reads_arrayGuard {rule : Rule} {P : Value → Prop} (h : rule.guard.Reads P) :
    rule.arrayGuard.Reads fun v => ∃ items, v = .array items ∧ ∀ x ∈ items, P x := by
  cases rule with
  | check g => exact h.arrayOf
  | ignore =>
    refine reads_array.congr fun v => ?_
    have hall : ∀ x, P x := by
      intro x
      obtain ⟨verdict, hverdict, hiff, -⟩ := h.decides x (Session.start .standard)
      exact hiff.mp (Option.some.inj hverdict).symm
    simp [hall]

namespace PropertySpec

/-- What may be absent is read as well, if that is asked for. -/
theorem reads_wrap {g : Guard} {P : Value → Prop} (nullable : Bool) (h : g.Reads P) :
    (wrap nullable g).guard.Reads fun v =>
      (nullable = true ∧ (v = .null ∨ v = .undefined)) ∨ P v := by
  cases nullable with
  | false => exact h.congr fun v => by simp
  | true => exact h.nullable.congr fun v => by simp

/-- A spec is read by the guard of its rule, if the spec of its elements is. -/
theorem reads_resolveKind {spec : PropertySpec} {property : String} {rule : Rule}
    {items : Option (Except SpecFault Rule)}
    (hitems : ∀ element, items = some (.ok element) →
      ∃ itemSpec, spec.items? = some itemSpec ∧ element.guard.Reads itemSpec.Accepts)
    (h : resolveKind property spec.kind spec.nullable items spec.values? = .ok rule) :
    rule.guard.Reads spec.Accepts := by
  -- where the kind is none of the unconstrained ones, absence aside it is the only thing that counts
  unfold resolveKind at h
  split at h
  · next hkind =>
    cases h
    exact reads_any.congr fun v => ⟨fun _ => .unconstrained (.inl hkind), fun _ => trivial⟩
  · next hkind =>
    cases h
    exact reads_any.congr fun v => ⟨fun _ => .unconstrained (.inr hkind), fun _ => trivial⟩
  · next hkind =>
    cases hi : items with
    | none => simp [hi] at h
    | some result =>
      cases result with
      | error fault => simp [hi, Except.map] at h
      | ok element =>
        rw [hi] at h
        cases h
        obtain ⟨itemSpec, hitem, hreads⟩ := hitems element hi
        refine (reads_wrap spec.nullable (Rule.reads_arrayGuard hreads)).congr fun v => ?_
        rw [accepts_iff spec v]
        simp [hkind, hitem, OfKind, and_comm]
  · next hkind =>
    cases hvalues : spec.values? with
    | none => simp [hvalues] at h
    | some values =>
      rw [hvalues] at h
      cases h
      refine (reads_wrap spec.nullable (reads_memberOf values)).congr fun v => ?_
      rw [accepts_iff spec v]
      simp [hkind, hvalues, OfKind, and_comm]
  · next hkind =>
    cases hvalues : spec.values? with
    | none => simp [hvalues] at h
    | some values =>
      rw [hvalues] at h
      cases h
      refine (reads_wrap spec.nullable (reads_keyOf values)).congr fun v => ?_
      rw [accepts_iff spec v]
      simp [hkind, hvalues, OfKind, and_comm]
  · next hignore hany harray hmember hkey =>
    cases hplain : plainGuard? spec.kind with
    | none => simp [hplain] at h
    | some g =>
      rw [hplain] at h
      cases h
      refine (reads_wrap spec.nullable (reads_plainGuard hplain)).congr fun v => ?_
      rw [accepts_iff spec v]
      simp [eq_false hignore, eq_false hany, eq_false harray, eq_false hmember, eq_false hkey]

/-- **The guard of a spec reads it.** -/
theorem reads_resolve : ∀ (spec : PropertySpec) {property : String} {rule : Rule},
    spec.resolve property = .ok rule → rule.guard.Reads spec.Accepts
  | bare _, _, _, h => by
    refine reads_resolveKind (fun _ hitems => ?_) h
    cases hitems
  | detailed _ _ none _, _, _, h => by
    refine reads_resolveKind (fun _ hitems => ?_) h
    cases hitems
  -- the elements are read under their own name, and that makes no difference here
  | detailed _ _ (some items) _, _, _, h => by
    refine reads_resolveKind (fun _ hitems => ?_) h
    exact ⟨items, rfl, reads_resolve items (Option.some.inj hitems)⟩

end PropertySpec

/-! ## Files that build -/

/-- Two computations in a row have a result if both do. -/
theorem bind_eq_ok_iff {α β ε : Type} {x : Except ε α} {f : α → Except ε β} {b : β} :
    x >>= f = .ok b ↔ ∃ a, x = .ok a ∧ f a = .ok b := by
  cases x with
  | error e => simp [bind, Except.bind]
  | ok a => simp [bind, Except.bind]

/-- What a list is mapped to stands for it element by element. -/
theorem forall₂_of_mapM {α β ε : Type} {f : α → Except ε β} :
    ∀ {xs : List α} {ys : List β}, xs.mapM f = .ok ys → List.Forall₂ (fun x y => f x = .ok y) xs ys
  | [], ys, h => by
    cases h
    exact .nil
  | x :: rest, ys, h => by
    rw [List.mapM_cons] at h
    obtain ⟨y, hx, h⟩ := bind_eq_ok_iff.mp h
    obtain ⟨others, hrest, h⟩ := bind_eq_ok_iff.mp h
    cases h
    exact .cons hx (forall₂_of_mapM hrest)

/-- A validator that is a guard reading a spec. -/
def PropertySpec.ReadBy (spec : PropertySpec) (w : Validator) : Prop :=
  ∃ g, w = .guard g ∧ g.Reads spec.Accepts

namespace SchemaFile

/-- Steps of a builder that do what a file says. -/
structure FollowedBy (f : SchemaFile) (ss : List BuildStep) : Prop where
  roots : List.Forall₂ PropertySpec.ReadBy f.root.toList (ss.filterMap BuildStep.root?)
  validators (key : String) :
    List.Forall₂ PropertySpec.ReadBy (f.specs key) (ss.filterMap (BuildStep.validator? key))
  silences (key : String) : ss.any (BuildStep.silences key) = f.suppresses key
  registers : (∃ st ∈ ss, st.key?.isSome = true) ↔ f.properties ≠ []

/-- The steps that a file comes to when its rules are resolved. -/
def steps (f : SchemaFile) (root : Option Rule) (properties : List (String × Rule)) :
    List BuildStep :=
  (root.map rootStep).toList ++ properties.map propertyStep ++ f.suppressSteps

section

variable (f : SchemaFile) (root : Option Rule) (properties : List (String × Rule))

theorem root?_suppressSteps : f.suppressSteps.filterMap BuildStep.root? = [] := by
  unfold suppressSteps
  split <;> rfl

theorem validator?_suppressSteps (key : String) :
    f.suppressSteps.filterMap (BuildStep.validator? key) = [] := by
  unfold suppressSteps
  split <;> rfl

/-- **The whole candidate is validated by the root rule alone.** -/
theorem roots_of_steps :
    (f.steps root properties).filterMap BuildStep.root? =
      root.toList.map fun rule => .guard rule.guard := by
  have hroot : ((root.map rootStep).toList).filterMap BuildStep.root? =
      root.toList.map fun rule => .guard rule.guard := by
    rcases root with _ | _ | _ <;> rfl
  have hproperties : (properties.map propertyStep).filterMap BuildStep.root? = [] := by
    rw [List.filterMap_map, List.filterMap_eq_nil_iff]
    rintro ⟨key, _ | _⟩ - <;> rfl
  rw [steps, List.filterMap_append, List.filterMap_append, hroot, hproperties,
    root?_suppressSteps, List.append_nil, List.append_nil]

/-- **A property is validated by the rules that are listed under it**, in their order. -/
theorem validators_of_steps (key : String) :
    (f.steps root properties).filterMap (BuildStep.validator? key) =
      (properties.filter (·.1 = key)).map fun p => .guard p.2.guard := by
  have hroot : ((root.map rootStep).toList).filterMap (BuildStep.validator? key) = [] := by
    rcases root with _ | _ | _ <;> rfl
  -- an ignored property has a validator that accepts anything
  have hproperties : (properties.map propertyStep).filterMap (BuildStep.validator? key) =
      (properties.filter (·.1 = key)).map fun p => .guard p.2.guard := by
    induction properties with
    | nil => rfl
    | cons p rest ih =>
      obtain ⟨k, rule⟩ := p
      by_cases hkey : k = key
      · cases rule <;> simp [propertyStep, BuildStep.validator?, Rule.guard, hkey, ih]
      · cases rule <;> simp [propertyStep, BuildStep.validator?, hkey, ih]
  rw [steps, List.filterMap_append, List.filterMap_append, hroot, hproperties,
    validator?_suppressSteps, List.nil_append, List.append_nil]

/-- **The notices left out** are those that the file suppresses. -/
theorem silences_of_steps (key : String) :
    (f.steps root properties).any (BuildStep.silences key) = f.suppresses key := by
  have hroot : ((root.map rootStep).toList).any (BuildStep.silences key) = false := by
    rcases root with _ | _ | _ <;> rfl
  have hproperties : (properties.map propertyStep).any (BuildStep.silences key) = false := by
    rw [List.any_map, List.any_eq_false]
    rintro ⟨k, _ | _⟩ - <;> simp [propertyStep, BuildStep.silences]
  rw [steps, List.any_append, List.any_append, hroot, hproperties]
  unfold suppressSteps suppresses
  split <;> simp_all [BuildStep.silences]

/-- Some property has a validator exactly if the file lists one. -/
theorem registers_of_steps :
    (∃ st ∈ f.steps root properties, st.key?.isSome = true) ↔ properties ≠ [] := by
  have hroot : ((root.map rootStep).toList).any (fun st => st.key?.isSome) = false := by
    rcases root with _ | _ | _ <;> rfl
  have hproperties : (properties.map propertyStep).any (fun st => st.key?.isSome) =
      !properties.isEmpty := by
    rcases properties with _ | ⟨⟨key, _ | _⟩, rest⟩ <;> rfl
  have hsuppress : f.suppressSteps.any (fun st => st.key?.isSome) = false := by
    unfold suppressSteps
    split <;> rfl
  rw [← List.any_eq_true, steps, List.any_append, List.any_append, hroot, hproperties, hsuppress]
  simp

end

/-- The root rule is that of the root spec. -/
theorem resolve_of_rootRule {f : SchemaFile} {root : Option Rule} (h : f.rootRule? = .ok root) :
    List.Forall₂ (fun spec rule => spec.resolve "root" = .ok rule) f.root.toList root.toList := by
  unfold rootRule? at h
  cases hspec : f.root with
  | none =>
    rw [hspec] at h
    cases h
    exact .nil
  | some spec =>
    cases hrule : spec.resolve "root" with
    | error fault => simp [hspec, hrule, Except.map] at h
    | ok rule =>
      simp only [hspec, hrule, Except.map] at h
      cases h
      exact .cons hrule .nil

/-- The rules of the properties are those of their specs, one by one and under the same keys. -/
theorem resolve_of_propertyRules {f : SchemaFile} {properties : List (String × Rule)}
    (h : f.propertyRules = .ok properties) :
    List.Forall₂ (fun p rule => p.1 = rule.1 ∧ p.2.resolve p.1 = .ok rule.2) f.properties
      properties := by
  refine (forall₂_of_mapM h).imp fun p rule hrule => ?_
  cases hresolve : p.2.resolve p.1 with
  | error fault => simp [hresolve, Except.map] at hrule
  | ok resolved =>
    simp only [hresolve, Except.map] at hrule
    cases hrule
    exact ⟨rfl, rfl⟩

/-- The guard of a file is that of the steps its rules come to. -/
theorem rules_of_builder {f : SchemaFile} {b : Builder} (hb : f.builder = .ok b) :
    ∃ root properties, f.rootRule? = .ok root ∧ f.propertyRules = .ok properties ∧
      b.guard = recordGuard f.name (f.steps root properties) := by
  unfold builder at hb
  obtain ⟨root, hroot, hb⟩ := bind_eq_ok_iff.mp hb
  obtain ⟨properties, hproperties, hb⟩ := bind_eq_ok_iff.mp hb
  cases hb
  exact ⟨root, properties, hroot, hproperties, rfl⟩

/-- **A file that builds, as the steps of a builder.** -/
theorem followedBy_of_builder {f : SchemaFile} {b : Builder} (hb : f.builder = .ok b) :
    ∃ ss, b.guard = recordGuard f.name ss ∧ f.FollowedBy ss := by
  obtain ⟨root, properties, hroot, hproperties, hguard⟩ := rules_of_builder hb
  have hlisted := resolve_of_propertyRules hproperties
  refine ⟨f.steps root properties, hguard, ⟨?_, fun key => ?_, f.silences_of_steps _ _, ?_⟩⟩
  · rw [roots_of_steps, List.forall₂_map_right_iff]
    exact (resolve_of_rootRule hroot).imp fun spec rule hrule =>
      ⟨rule.guard, rfl, spec.reads_resolve hrule⟩
  · rw [validators_of_steps, specs, List.forall₂_map_left_iff, List.forall₂_map_right_iff]
    refine (List.rel_filter ?_ hlisted).imp fun p rule h =>
      ⟨rule.2.guard, rfl, p.2.reads_resolve h.2⟩
    rintro p rule ⟨hkey, -⟩
    simp [hkey]
  · rw [registers_of_steps, ← List.length_pos_iff, ← List.length_pos_iff, hlisted.length_eq]

/-! ## The guard of a file -/

section

variable {specs : List PropertySpec} {ws : List Validator}

theorem guard_of_readBy (h : List.Forall₂ PropertySpec.ReadBy specs ws) :
    ∀ w ∈ ws, ∃ g P, w = .guard g ∧ g.Reads P :=
  forall_mem_of_forall₂ h fun spec _ ⟨g, hw, hreads⟩ => ⟨g, spec.Accepts, hw, hreads⟩

/-- Validators that read specs accept what the specs accept. -/
theorem accepts_of_readBy (h : List.Forall₂ PropertySpec.ReadBy specs ws) (target : Target)
    (x : Value) (s : Session) :
    (∀ w ∈ ws, Call.Accepts ⟨target, w.predicate, x⟩ s) ↔ ∀ spec ∈ specs, spec.Accepts x := by
  induction h with
  | nil => simp
  | cons hread _ ih =>
    obtain ⟨g, rfl, hreads⟩ := hread
    rw [List.forall_mem_cons, List.forall_mem_cons, ih]
    exact and_congr_left' (Call.accepts_iff (c := ⟨target, g.check, x⟩) (hreads.decides x) s)

end

namespace FollowedBy

variable {f : SchemaFile} {ss : List BuildStep}

/-- **The guard has no code of the caller's own.** -/
theorem code_eq_nil (h : f.FollowedBy ss) : (recordGuard f.name ss).code = [] := by
  rw [List.eq_nil_iff_forall_not_mem]
  intro p hp
  -- such code would stand in a validator of the whole or of a property
  rcases Guard.mem_code_record hp with ⟨w, hw, hcode⟩ | ⟨key, w, hw, hcode⟩
  · obtain ⟨g, P, rfl, hreads⟩ := guard_of_readBy h.roots w hw
    rw [Guard.code_labelled, hreads.code] at hcode
    exact List.not_mem_nil hcode
  · obtain ⟨g, P, rfl, hreads⟩ := guard_of_readBy (h.validators key) w hw
    rw [Guard.code_labelled, hreads.code] at hcode
    exact List.not_mem_nil hcode

theorem isEmpty_roots (h : f.FollowedBy ss) :
    (ss.filterMap BuildStep.root?).isEmpty = f.root.isNone := by
  rw [← Registry.isEmpty_eq_of_forall₂ h.roots]
  cases f.root <;> rfl

/-- Every call on the way decides. -/
theorem queue_decides (h : f.FollowedBy ss) (v : Value) :
    ∀ c ∈ queue ss v, ∃ P, c.body.Decides P := by
  have hcall : ∀ w : Validator, (∃ g P, w = .guard g ∧ g.Reads P) → ∀ target x,
      ∃ Q, (Call.body ⟨target, w.predicate, x⟩).Decides Q := by
    rintro _ ⟨g, P, rfl, hreads⟩ target x
    exact ⟨P x, hreads.decides x⟩
  cases hentries : v.entries? with
  | none => simp [queue, hentries]
  | some entries =>
    refine (forall_mem_queue ss hentries).mpr ⟨fun w hw => ?_, fun e he w hw => ?_⟩
    · exact hcall w (guard_of_readBy h.roots w hw) _ _
    · exact hcall w (guard_of_readBy (h.validators e.1) w hw) _ _

/-- **The file accepts what nothing stands against and all calls accept.** -/
theorem accepts_iff_queue (h : f.FollowedBy ss) (v : Value) (s : Session) :
    f.Accepts v ↔ verdictUnopposed ss v = true ∧ ∀ c ∈ queue ss v, c.Accepts s := by
  have hroot : ss.filterMap BuildStep.root? = [] ↔ f.root = none := by
    rw [← List.isEmpty_iff, h.isEmpty_roots, Option.isNone_iff_eq_none]
  rw [verdictUnopposed_iff, hroot, h.registers]
  cases hentries : v.entries? with
  | none =>
    -- no candidate for a record, on either side
    have hcandidate : ¬v.isObjectLike = true := by simp [v.isObjectLike_eq_isSome, hentries]
    exact ⟨fun hv => absurd hv.candidate hcandidate, fun hv => absurd hv.1.1 hcandidate⟩
  | some entries =>
    have hspecs : (∀ spec ∈ f.root.toList, spec.Accepts v) ↔
        ∀ spec, f.root = some spec → spec.Accepts v := by simp
    rw [forall_mem_queue ss hentries, accepts_of_readBy h.roots, hspecs]
    simp only [accepts_of_readBy (h.validators _)]
    constructor
    · rintro ⟨hcandidate, hwhole, hparts, hoccupied⟩
      exact ⟨⟨hcandidate, hentries ▸ hoccupied⟩, hwhole, hparts entries hentries⟩
    · rintro ⟨⟨hcandidate, hoccupied⟩, hwhole, hparts⟩
      refine ⟨hcandidate, hwhole, fun others hothers => ?_, hentries ▸ hoccupied⟩
      obtain rfl : entries = others := Option.some.inj (hentries.symm.trans hothers)
      exact hparts

/-- A property gets a notice where the file says so. -/
theorem isNoticed_eq (h : f.FollowedBy ss) : isNoticed ss = f.notices := by
  funext key
  rw [isNoticed, notices, h.isEmpty_roots, h.silences,
    ← Registry.isEmpty_eq_of_forall₂ (h.validators key)]

end FollowedBy

/-- No predicate of a file's guard is code of the caller's own. -/
theorem code_of_builder {f : SchemaFile} {b : Builder} (hb : f.builder = .ok b) :
    b.guard.code = [] := by
  obtain ⟨ss, hguard, hfollowed⟩ := followedBy_of_builder hb
  rw [hguard, hfollowed.code_eq_nil]

/-- The diagnostics that the guard of a file may send about a value. -/
inductive Says (f : SchemaFile) (v : Value) : Diagnostic → Prop where
  | member : Says f v .memberFailed
  | missing {key : String} (hkey : key ∈ v.ownKeys) : Says f v (.missing f.name key)
  | root (settings : Settings) (x : Value) : Says f v (.failed settings f.name .root x)
  | property {key : String} (hkey : key ∈ v.ownKeys) (settings : Settings) (x : Value) :
      Says f v (.failed settings f.name (.property key) x)

/-- **The guard of a file says nothing else**, in whatever session. -/
theorem says_of_builder {f : SchemaFile} {b : Builder} (hb : f.builder = .ok b) (v : Value)
    (s : Session) : ∀ d ∈ emitted ((b.guard.check v).history s), f.Says v d := by
  obtain ⟨ss, hguard, hfollowed⟩ := followedBy_of_builder hb
  intro d hd
  rw [hguard, history_record, emitted_append, List.mem_append] at hd
  rcases hd with hwalk | hnone
  · rcases mem_emitted_transcript hwalk with ⟨c, hc, t, hbody⟩ | ⟨key, hkey, rfl⟩ |
      ⟨c, hc, settings, rfl⟩
    · -- inside a validator: nothing but the element of an array
      rw [callsOf_plan] at hc
      obtain ⟨P, hP⟩ := hfollowed.queue_decides v c hc
      obtain ⟨-, -, -, -, hsaid⟩ := hP t
      rw [hsaid d hbody]
      exact .member
    · rw [noticesOf_plan] at hkey
      exact .missing (List.mem_of_mem_filter hkey)
    · -- the validator of the whole, or of an own property
      rcases part_of_mem_plan (mem_callsOf.mp hc) with
        ⟨htarget, -⟩ | ⟨entries, key, hentries, htarget, hmem⟩
      · rw [htarget]
        exact .root settings c.value
      · rw [htarget]
        refine .property ?_ settings c.value
        rw [Value.ownKeys, hentries]
        exact List.mem_map.mpr ⟨(key, c.value), hmem, rfl⟩
  · exact absurd hnone List.not_mem_nil

/-! ## The headline -/

/-- **The guard of a schema file follows the reading of the file.** On every value and from every
session it comes to a verdict, and it accepts exactly the values that conform. If diagnostics are on,
a value that conforms gets the notices that are due, one for each of its own keys in order, and no
other diagnostic. -/
theorem guard_reads_file (f : SchemaFile) {b : Builder} (hb : f.builder = .ok b) (v : Value)
    (s : Session) :
    ∃ verdict,
      (b.guard.verdict v s).1 = some verdict ∧
      (verdict = true ↔ f.Accepts v) ∧
      (s.settings.enabled = true → f.Accepts v →
        (Run.capture (b.guard.verdict v) s).1 =
          some (true, (v.ownKeys.filter f.notices).map (Diagnostic.missing f.name))) := by
  obtain ⟨ss, hguard, hfollowed⟩ := followedBy_of_builder hb
  obtain ⟨verdict, hverdict, hiff, hemitted⟩ :=
    recordGuard_decides f.name (hfollowed.queue_decides v) s
  rw [← hfollowed.accepts_iff_queue] at hiff
  rw [hguard]
  refine ⟨verdict, hverdict, hiff, fun hon hv => ?_⟩
  have haccepts : verdict = true := hiff.mpr hv
  -- the settings stay, so all that is sent is delivered
  have hunchanged := (recordGuard f.name ss).unchanged_check
    (by simp [hfollowed.code_eq_nil]) (by simp [hfollowed.code_eq_nil]) v s
  have hrun : (((recordGuard f.name ss).check v).run s).1 = some true := by
    rw [← haccepts]
    exact hverdict
  rw [Guard.verdict, ((recordGuard f.name ss).check v).traced.collects, hrun,
    sent_of_unchanged hunchanged, if_pos hon, hemitted haccepts, noticesOf_plan,
    hfollowed.isNoticed_eq]
  rfl

/-- A file with a nullable array, an enumeration, an ignored property and a suppressed one: of the
value below it lists all but `note` and `x`. -/
theorem guard_reads_file_noted :
    let f : SchemaFile :=
      ⟨"User", none, some (.keys ["x"]),
        [("tags", .detailed "array-of" true (some (.bare "string")) none),
          ("role", .detailed "member-of" false none (some [("Admin", .string "admin")])),
          ("id", .bare "ignore")]⟩
    let v : Value := .object [("tags", .array [.string "new"]), ("note", .null),
      ("role", .string "admin"), ("x", .null), ("id", .undefined)]
    let s := Session.start .standard
    ∃ b, f.builder = .ok b ∧ f.Accepts v ∧
      (Run.capture (b.guard.verdict v) s).1 = some (true, [.missing "User" "note"]) ∧
      ¬f.Accepts (.object [("role", .string "Admin")]) := by
  intro f v s
  have hb : f.builder = .ok _ := rfl
  obtain ⟨verdict, hverdict, hiff, hcapture⟩ := f.guard_reads_file hb v s
  have haccepts : f.Accepts v := hiff.mp (Option.some.inj hverdict).symm
  obtain ⟨verdict', hverdict', hiff', -⟩ :=
    f.guard_reads_file hb (.object [("role", .string "Admin")]) s
  have hrejects : ¬f.Accepts (.object [("role", .string "Admin")]) := by
    rw [← hiff', ← Option.some.inj hverdict']
    exact Bool.false_ne_true
  exact ⟨_, hb, haccepts, hcapture rfl haccepts, hrejects⟩

end SchemaFile

end RecordGuard
