import RecordGuard.Proofs.Schema.Reading

/-!
# Which schema files have no guard

A spec resolves to a rule or to a fault, and nothing but its kind, the specs of its elements and the
presence of its declarations decide which. The guard of a file and its description go through the
same specs in the same order, so they fail together.

## The architecture

* **`PropertySpec.Yields`**, **`PropertySpec.comesTo_resolve`** — the rule of a spec.
* **`PropertySpec.Reaches`**, **`PropertySpec.Lacks`**, **`PropertySpec.Defective`** — what is wrong
  with a spec that has none, said without resolving anything; `PropertySpec.resolve_eq_error_iff`.
* **`PropertySpec.inUse`** — a spec without the parts that its kind makes nothing of.
* **`SchemaFile.FirstFault`**, **`SchemaFile.rules_eq_error_iff`** — by way of
  `mapM_eq_error_iff`, the fault of a file is that of its first defective spec.
* **`SchemaFile.fails_at_first_fault`** — the headline.
-/

namespace RecordGuard

/-! ## Lists that are resolved one after the other -/

/-- A list of computations fails with the fault of the first that fails. -/
theorem mapM_eq_error_iff {α β ε : Type} {f : α → Except ε β} {xs : List α} {e : ε} :
    xs.mapM f = .error e ↔
      ∃ before x after, xs = before ++ x :: after ∧ (∀ y ∈ before, ∃ z, f y = .ok z) ∧
        f x = .error e := by
  induction xs with
  | nil => simp [pure, Except.pure]
  | cons x rest ih =>
    rw [List.mapM_cons]
    constructor
    · intro h
      -- the first of the list fails, or one behind it does
      cases hx : f x with
      | error e' =>
        rw [hx] at h
        cases h
        exact ⟨[], x, rest, rfl, List.forall_mem_nil _, hx⟩
      | ok y =>
        cases hrest : rest.mapM f with
        | ok ys => simp [hx, hrest, bind, Except.bind, pure, Except.pure] at h
        | error e' =>
          rw [hx, hrest] at h
          cases h
          obtain ⟨before, x', after, hsplit, hbefore, hx'⟩ := ih.mp hrest
          exact ⟨x :: before, x', after, congrArg (x :: ·) hsplit,
            List.forall_mem_cons.mpr ⟨⟨y, hx⟩, hbefore⟩, hx'⟩
    · rintro ⟨before, x', after, hsplit, hbefore, hx'⟩
      cases before with
      | nil =>
        obtain ⟨rfl, rfl⟩ := List.cons.inj hsplit
        rw [hx']
        rfl
      | cons y others =>
        obtain ⟨rfl, hrest⟩ := List.cons.inj hsplit
        obtain ⟨⟨z, hz⟩, hothers⟩ := List.forall_mem_cons.mp hbefore
        rw [hz, ih.mpr ⟨others, x', after, hrest, hothers, hx'⟩]
        rfl

theorem exists_ok_of_mapM {α β ε : Type} {f : α → Except ε β} {xs : List α} {ys : List β}
    (h : xs.mapM f = .ok ys) : ∀ x ∈ xs, ∃ y, f x = .ok y :=
  forall_mem_of_forall₂ (forall₂_of_mapM h).flip fun y _ hxy => ⟨y, hxy⟩

/-- Mapping the results of a list of computations is mapping the result of each. -/
theorem mapM_map_eq {α β γ ε : Type} (f : α → Except ε β) (g : β → γ) (xs : List α) :
    (xs.mapM fun x => (f x).map g) = (xs.mapM f).map (List.map g) := by
  induction xs with
  | nil => rfl
  | cons x rest ih =>
    rw [List.mapM_cons, List.mapM_cons, ih]
    cases f x with
    | error e => rfl
    | ok y => cases rest.mapM f <;> rfl

namespace PropertySpec

/-! ## Kinds -/

/-- The kinds that mean anything. -/
def kinds : List String :=
  ["string", "number", "boolean", "object", "date", "date-string", "array", "array-of", "member-of",
    "key-of", "ignore", "any"]

/-- The kinds that need no options. -/
def plainKinds : List String :=
  ["string", "number", "boolean", "object", "date", "date-string", "array"]

/-- A kind without options has a guard of its own. -/
theorem plainGuard?_eq_none_iff (kind : String) : plainGuard? kind = none ↔ kind ∉ plainKinds := by
  unfold plainGuard?
  split
  all_goals simp_all [plainKinds]

/-! ## Rules -/

/-- The rules that specs come to. -/
inductive Yields : PropertySpec → Rule → Prop where
  | ignored {spec : PropertySpec} (hkind : spec.kind = "ignore" ∨ spec.kind = "any") :
      Yields spec .ignore
  | plain {spec : PropertySpec} {g : Guard} (hkind : plainGuard? spec.kind = some g) :
      Yields spec (wrap spec.nullable g)
  | arrayOf {spec items : PropertySpec} {element : Rule} (hkind : spec.kind = "array-of")
      (hitems : spec.items? = some items) (helement : Yields items element) :
      Yields spec (wrap spec.nullable element.arrayGuard)
  | memberOf {spec : PropertySpec} {values : Fields Json} (hkind : spec.kind = "member-of")
      (hvalues : spec.values? = some values) :
      Yields spec (wrap spec.nullable (.memberOf (.ofJsonFields values)))
  | keyOf {spec : PropertySpec} {values : Fields Json} (hkind : spec.kind = "key-of")
      (hvalues : spec.values? = some values) :
      Yields spec (wrap spec.nullable (.keyOf (.ofJsonFields values)))

/-! ## Faults -/

/-- `spec.Reaches levels inner`: one comes from `spec` to `inner` by going to the specs of elements
so many times, always from a kind that has elements. -/
inductive Reaches : PropertySpec → Nat → PropertySpec → Prop where
  | here (spec : PropertySpec) : Reaches spec 0 spec
  | inside {spec items inner : PropertySpec} {levels : Nat} (hkind : spec.kind = "array-of")
      (hitems : spec.items? = some items) (hinner : Reaches items levels inner) :
      Reaches spec (levels + 1) inner

/-- What a spec itself may be wrong in, with `property` for its name. -/
inductive Lacks (property : String) (spec : PropertySpec) : SpecFault → Prop where
  | items (hkind : spec.kind = "array-of") (hitems : spec.items? = none) :
      Lacks property spec (.missingItems property)
  | values (hkind : spec.kind = "member-of" ∨ spec.kind = "key-of") (hvalues : spec.values? = none) :
      Lacks property spec (.missingValues property spec.kind)
  | kind (hkind : spec.kind ∉ kinds) : Lacks property spec (.unknownKind property spec.kind)

/-- The name of a place inside arrays: a pair of brackets for each that was entered. -/
def within (property : String) (levels : Nat) : String :=
  property ++ String.join (List.replicate levels "[]")

/-- Somewhere on the way through the specs of elements a spec is wrong. -/
def Defective (property : String) (spec : PropertySpec) (e : SpecFault) : Prop :=
  ∃ levels inner, spec.Reaches levels inner ∧ inner.Lacks (within property levels) e

theorem within_zero (property : String) : within property 0 = property := String.append_empty

theorem within_succ (property : String) (levels : Nat) :
    within property (levels + 1) = within (property ++ "[]") levels := by
  rw [within, within, List.replicate_succ, String.join_cons, String.append_assoc]

/-- The fault of a spec is its own, or one of the spec of its elements. -/
theorem defective_iff (property : String) (spec : PropertySpec) (e : SpecFault) :
    spec.Defective property e ↔
      spec.Lacks property e ∨
        spec.kind = "array-of" ∧
          ∃ items, spec.items? = some items ∧ items.Defective (property ++ "[]") e := by
  constructor
  · rintro ⟨levels, inner, hreaches, hlacks⟩
    -- one stays, or goes to the elements first, whose name has the brackets of this array already
    cases hreaches with
    | here =>
      rw [within_zero] at hlacks
      exact .inl hlacks
    | inside hkind hitems hinner =>
      rw [within_succ] at hlacks
      exact .inr ⟨hkind, _, hitems, _, inner, hinner, hlacks⟩
  · rintro (hlacks | ⟨hkind, items, hitems, levels, inner, hinner, hlacks⟩)
    · rw [← within_zero property] at hlacks
      exact ⟨0, spec, .here spec, hlacks⟩
    · rw [← within_succ] at hlacks
      exact ⟨levels + 1, inner, .inside hkind hitems hinner, hlacks⟩

/-- What a spec may come to under the name `property`: its rule, or a fault of its own or inside. -/
def ComesTo (property : String) (spec : PropertySpec) : Except SpecFault Rule → Prop
  | .ok rule => spec.Yields rule
  | .error e => spec.Defective property e

/-- A spec comes to what it says, if the spec of its elements does. -/
theorem comesTo_resolveKind {spec : PropertySpec} {property : String}
    {items : Option (Except SpecFault Rule)} (hnone : items = none → spec.items? = none)
    (hsome : ∀ result, items = some result →
      ∃ itemSpec, spec.items? = some itemSpec ∧ itemSpec.ComesTo (property ++ "[]") result) :
    spec.ComesTo property
      (resolveKind property spec.kind spec.nullable items spec.values?) := by
  have hown : ∀ {e}, spec.Lacks property e → spec.ComesTo property (.error e) :=
    fun h => (defective_iff property spec _).mpr (.inl h)
  generalize hresult : resolveKind property spec.kind spec.nullable items spec.values? = result
  -- by the kind: the two that ask for nothing, arrays, the two enumerations, and the rest
  unfold resolveKind at hresult
  split at hresult
  · next hkind =>
    subst hresult
    exact .ignored (.inl hkind)
  · next hkind =>
    subst hresult
    exact .ignored (.inr hkind)
  · next hkind =>
    cases hitems : items with
    | none =>
      rw [hitems] at hresult
      subst hresult
      exact hown (.items hkind (hnone hitems))
    | some inner =>
      obtain ⟨itemSpec, hitem, hinner⟩ := hsome inner hitems
      rw [hitems] at hresult
      subst hresult
      cases inner with
      | ok element => exact .arrayOf hkind hitem hinner
      | error e =>
        exact (defective_iff property spec e).mpr (.inr ⟨hkind, itemSpec, hitem, hinner⟩)
  · next hkind =>
    cases hvalues : spec.values? with
    | none =>
      rw [hvalues] at hresult
      subst hresult
      exact hown (.values (.inl hkind) hvalues)
    | some values =>
      rw [hvalues] at hresult
      subst hresult
      exact .memberOf hkind hvalues
  · next hkind =>
    cases hvalues : spec.values? with
    | none =>
      rw [hvalues] at hresult
      subst hresult
      exact hown (.values (.inr hkind) hvalues)
    | some values =>
      rw [hvalues] at hresult
      subst hresult
      exact .keyOf hkind hvalues
  · next hignore hany harray hmember hkey =>
    -- what is left is a plain kind or no kind at all
    cases hplain : plainGuard? spec.kind with
    | some g =>
      rw [hplain] at hresult
      subst hresult
      exact .plain hplain
    | none =>
      rw [hplain] at hresult
      subst hresult
      have hnot := (plainGuard?_eq_none_iff spec.kind).mp hplain
      have hkind : spec.kind ∉ kinds := by simp_all [kinds, plainKinds]
      exact hown (.kind hkind)

/-- **What a spec resolves to**, by induction along the specs of elements. -/
theorem comesTo_resolve : ∀ (spec : PropertySpec) (property : String),
    spec.ComesTo property (spec.resolve property)
  | bare _, _ => comesTo_resolveKind (fun _ => rfl) (fun _ h => by cases h)
  | detailed _ _ none _, _ => comesTo_resolveKind (fun _ => rfl) (fun _ h => by cases h)
  | detailed _ _ (some items) _, property => by
    refine comesTo_resolveKind (fun h => by cases h) fun result hresult => ?_
    cases hresult
    exact ⟨items, rfl, comesTo_resolve items (property ++ "[]")⟩

/-- Resolving a spec looks at its four parts. -/
theorem resolve_eq (spec : PropertySpec) (property : String) :
    spec.resolve property =
      resolveKind property spec.kind spec.nullable
        (spec.items?.map fun items => items.resolve (property ++ "[]")) spec.values? := by
  rcases spec with _ | ⟨_, _, _ | _, _⟩ <;> rfl

/-- **A spec that lacks something fails with that fault.** -/
theorem resolve_of_lacks {property : String} {spec : PropertySpec} {e : SpecFault}
    (h : spec.Lacks property e) : spec.resolve property = .error e := by
  rw [resolve_eq]
  cases h with
  | items hkind hitems => simp [resolveKind, hkind, hitems]
  | values hkind hvalues => rcases hkind with hkind | hkind <;> simp [resolveKind, hkind, hvalues]
  | kind hkind =>
    have hplain : plainGuard? spec.kind = none := by
      rw [plainGuard?_eq_none_iff]
      simp_all [kinds, plainKinds]
    unfold resolveKind
    split
    all_goals simp_all [kinds]

/-- **A spec fails to resolve just if it is defective**, and with that fault. -/
theorem resolve_eq_error_iff {property : String} {spec : PropertySpec} {e : SpecFault} :
    spec.resolve property = .error e ↔ spec.Defective property e := by
  constructor
  · intro h
    have hcomes := spec.comesTo_resolve property
    rwa [h] at hcomes
  · rintro ⟨levels, inner, hreaches, hlacks⟩
    induction hreaches generalizing property with
    | here spec =>
      rw [within_zero] at hlacks
      exact resolve_of_lacks hlacks
    | inside hkind hitems _ ih =>
      rw [within_succ] at hlacks
      rw [resolve_eq, hitems]
      simp [resolveKind, hkind, ih hlacks, Except.map]

/-- A spec resolves exactly if it is not defective. -/
theorem exists_resolve_eq_ok_iff {property : String} {spec : PropertySpec} :
    (∃ rule, spec.resolve property = .ok rule) ↔ ∀ e, ¬spec.Defective property e := by
  simp only [← resolve_eq_error_iff]
  cases spec.resolve property with
  | ok rule => simp
  | error e => simp

/-! ## Parts that are not in use -/

/-- The spec without the parts that its kind makes nothing of. -/
def inUse : PropertySpec → PropertySpec
  | bare kind => bare kind
  | detailed kind nullable none values =>
    detailed kind nullable none (if kind = "member-of" ∨ kind = "key-of" then values else none)
  | detailed kind nullable (some items) values =>
    detailed kind nullable (if kind = "array-of" then some items.inUse else none)
      (if kind = "member-of" ∨ kind = "key-of" then values else none)

/-- Elements count for arrays alone, and declarations for enumerations alone. -/
theorem resolveKind_congr {property kind : String} {nullable : Bool}
    {items others : Option (Except SpecFault Rule)} {values values' : Option (Fields Json)}
    (hitems : kind = "array-of" → items = others)
    (hvalues : kind = "member-of" ∨ kind = "key-of" → values = values') :
    resolveKind property kind nullable items values =
      resolveKind property kind nullable others values' := by
  unfold resolveKind
  split
  all_goals simp_all

/-- **Parts that are not in use make no difference.** -/
theorem resolve_inUse : ∀ (spec : PropertySpec) (property : String),
    spec.inUse.resolve property = spec.resolve property
  | bare _, _ => rfl
  | detailed kind nullable none values, property =>
    resolveKind_congr (fun _ => rfl) fun hkind => if_pos hkind
  | detailed kind nullable (some items) values, property => by
    rw [resolve_eq, resolve_eq]
    refine resolveKind_congr (fun hkind => ?_) fun hkind => if_pos hkind
    have hkind' : kind = "array-of" := hkind
    simp [inUse, items?, hkind', resolve_inUse items]

end PropertySpec

/-! ## Files -/

namespace SchemaFile

/-- The specs of a file in the order in which they are resolved, each under the name that faults
give it. -/
def named (f : SchemaFile) : List (String × PropertySpec) :=
  (f.root.map fun spec => ("root", spec)).toList ++ f.properties

/-- The fault is that of the first defective spec. -/
def FirstFault (f : SchemaFile) (e : SpecFault) : Prop :=
  ∃ before p after, f.named = before ++ p :: after ∧
    (∀ q ∈ before, ∀ e', ¬q.2.Defective q.1 e') ∧ p.2.Defective p.1 e

/-- The rules of a file, resolved in order. -/
def rules (f : SchemaFile) : Except SpecFault (List Rule) :=
  f.named.mapM fun p => p.2.resolve p.1

/-- **The rules of a file fail at its first fault.** -/
theorem rules_eq_error_iff {f : SchemaFile} {e : SpecFault} :
    f.rules = .error e ↔ f.FirstFault e := by
  rw [rules, mapM_eq_error_iff]
  simp only [PropertySpec.exists_resolve_eq_ok_iff, PropertySpec.resolve_eq_error_iff]
  rfl

/-- The rules of the properties without their keys. -/
theorem mapM_resolve_eq (properties : List (String × PropertySpec)) :
    (properties.mapM fun p : String × PropertySpec => p.2.resolve p.1) =
      (properties.mapM fun p : String × PropertySpec =>
        (p.2.resolve p.1).map fun rule => (p.1, rule)).map fun rules => rules.map (·.2) := by
  rw [← mapM_map_eq]
  congr 1
  funext p
  cases p.2.resolve p.1 <;> rfl

/-- The rule of the root comes first, and then those of the properties. -/
theorem rules_eq (f : SchemaFile) :
    f.rules = do
      let root ← f.rootRule?
      let properties ← f.propertyRules
      return root.toList ++ properties.map (·.2) := by
  have hproperties : f.properties.mapM (fun p : String × PropertySpec => p.2.resolve p.1) =
      f.propertyRules.map fun rules => rules.map (·.2) := mapM_resolve_eq f.properties
  have hroot : (f.root.map fun spec => ("root", spec)).toList.mapM
      (fun p : String × PropertySpec => p.2.resolve p.1) = f.rootRule?.map Option.toList := by
    unfold rootRule?
    cases f.root with
    | none => rfl
    | some spec =>
      show List.mapM _ [("root", spec)] = ((spec.resolve "root").map some).map Option.toList
      rw [List.mapM_cons]
      cases spec.resolve "root" <;> rfl
  -- the root is resolved like a property in front of the others
  rw [rules, named, List.mapM_append, hroot, hproperties]
  cases f.rootRule? with
  | error e => rfl
  | ok root => cases f.propertyRules <;> rfl

/-- **A file fails to build, and to be described, where its rules cannot be resolved.** -/
theorem builder_describe_of_rules (f : SchemaFile) :
    (∃ b text rules, f.builder = .ok b ∧ f.describe = .ok text ∧ f.rules = .ok rules) ∨
      ∃ e, f.builder = .error e ∧ f.describe = .error e ∧ f.rules = .error e := by
  -- all three start by resolving the root and then the properties
  rw [rules_eq, builder, describe]
  cases f.rootRule? with
  | error e => exact .inr ⟨e, rfl, rfl, rfl⟩
  | ok root =>
    cases f.propertyRules with
    | error e => exact .inr ⟨e, rfl, rfl, rfl⟩
    | ok properties => exact .inl ⟨_, _, _, rfl, rfl, rfl⟩

/-- The guard of a file fails to build as its rules fail to resolve. -/
theorem builder_eq_error_iff {f : SchemaFile} {e : SpecFault} :
    f.builder = .error e ↔ f.rules = .error e := by
  rcases f.builder_describe_of_rules with ⟨b, text, rules, hb, -, hrules⟩ | ⟨e', hb, -, hrules⟩
  · simp [hb, hrules]
  · simp [hb, hrules]

/-- There is a first fault exactly if some spec is defective. -/
theorem exists_firstFault_iff {f : SchemaFile} :
    (∃ e, f.FirstFault e) ↔ ∃ p ∈ f.named, ∃ e, p.2.Defective p.1 e := by
  constructor
  · rintro ⟨e, before, p, after, hnamed, -, hp⟩
    refine ⟨p, ?_, e, hp⟩
    rw [hnamed]
    exact List.mem_append_right _ List.mem_cons_self
  · rintro ⟨p, hp, e, hdefective⟩
    simp only [← rules_eq_error_iff]
    cases hrules : f.rules with
    | error e' => exact ⟨e', rfl⟩
    | ok rules =>
      -- then this spec would have a rule
      exact absurd hdefective
        (PropertySpec.exists_resolve_eq_ok_iff.mp (exists_ok_of_mapM hrules p hp) e)

/-- Files whose specs differ at most in parts that are not in use have the same rules. -/
theorem rules_congr {f f' : SchemaFile}
    (h : f'.named.map (fun p => (p.1, p.2.inUse)) = f.named.map fun p => (p.1, p.2.inUse)) :
    f'.rules = f.rules := by
  -- the rules can be told from the parts in use alone
  have hinUse : ∀ f : SchemaFile,
      f.rules = (f.named.map fun p => (p.1, p.2.inUse)).mapM fun p => p.2.resolve p.1 := by
    intro f
    simp only [rules, List.mapM_map, Function.comp_def, PropertySpec.resolve_inUse]
  rw [hinUse f', hinUse f, h]

/-! ## The headline -/

/-- **Where a schema file has no guard.** A file is built and described, or neither, and then for the
same reason. That is the fault of the first defective spec, in the order of the root and the
properties; there is one just if some spec is defective. A spec is defective if, entering the elements
of arrays, one comes to an array without a spec for its elements, to an enumeration without
declarations, or to a kind that means nothing; the fault names the root or the property with a pair of
brackets for each array entered. Whatever else two files differ in, what they suppress and the parts
of specs that are not in use, they fail alike. -/
theorem fails_at_first_fault (f : SchemaFile) :
    ((∃ b text, f.builder = .ok b ∧ f.describe = .ok text) ∨
        ∃ e, f.builder = .error e ∧ f.describe = .error e) ∧
      (∀ e, f.builder = .error e ↔ f.FirstFault e) ∧
      ((∃ e, f.builder = .error e) ↔ ∃ p ∈ f.named, ∃ e, p.2.Defective p.1 e) ∧
      ∀ f' : SchemaFile,
        f'.named.map (fun p => (p.1, p.2.inUse)) = f.named.map (fun p => (p.1, p.2.inUse)) →
        ∀ e, f'.builder = .error e ↔ f.builder = .error e := by
  refine ⟨?together, fun e => ?first, ?some, fun f' h e => ?alike⟩
  case together =>
    exact f.builder_describe_of_rules.imp
      (fun ⟨b, text, _, hb, htext, _⟩ => ⟨b, text, hb, htext⟩)
      fun ⟨e, hb, htext, _⟩ => ⟨e, hb, htext⟩
  case first => rw [builder_eq_error_iff, rules_eq_error_iff]
  case some =>
    simp only [builder_eq_error_iff, rules_eq_error_iff]
    exact exists_firstFault_iff
  case alike => rw [builder_eq_error_iff, builder_eq_error_iff, rules_congr h]

/-- Of two defective properties the first is reported, with the brackets of the two arrays in which
the fault stands. Neither the elements of what is no array nor the missing declarations behind it
matter. -/
example :
    let spec : PropertySpec := .detailed "array-of" true (some (.detailed "array-of" false
      (some (.bare "member-of")) none)) none
    let f : SchemaFile := ⟨"T", some (.detailed "object" false (some (.bare "uuid")) none), none,
      [("tags", spec), ("id", .bare "uuid")]⟩
    f.describe = .error (.missingValues "tags[][]" "member-of") := rfl

end SchemaFile

end RecordGuard
