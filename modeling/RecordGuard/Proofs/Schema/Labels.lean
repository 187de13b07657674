import RecordGuard.Proofs.Schema.Faults

/-!
# Labels of a description

A description shows a rule by its label alone. A label is a kind name and after it a suffix for each
array and each acceptance of absent values, from the inside out. The name of no kind ends like a
suffix, and the two suffixes end differently, so a label can be taken apart again, and apart from
enumerations it names one rule.

* **`PropertySpec.listedAs`**, **`SchemaFile.describe_eq_listed`** — what a description shows of a spec.
* **`Guard.OfKinds`**, **`Guard.OfKinds.eq_of_label_eq`** — guards of kinds, told apart by their labels.
* **`PropertySpec.EnumerationFree`**, **`PropertySpec.ofKinds_of_yields`** — specs that come to such
  guards.
* **`PropertySpec.agree_of_listedAs`** — the headline.
-/

namespace RecordGuard

/-! ## What a description shows -/

/-- The label under which a description lists a spec. -/
def PropertySpec.listedAs (property : String) (spec : PropertySpec) : Except SpecFault String :=
  (spec.resolve property).map Rule.label

/-- **Of its root and properties a description shows the labels and nothing else.** -/
theorem SchemaFile.describe_eq_listed (f : SchemaFile) :
    f.describe = do
      let root ← f.root.mapM fun spec => spec.listedAs "root"
      let properties ← f.properties.mapM fun p =>
        (p.2.listedAs p.1).map fun label => "  " ++ p.1 ++ ": " ++ label ++ "\n"
      return "schema: " ++ f.name ++ "\n" ++
        (root.elim "" fun label => "root: " ++ label ++ "\n") ++ "properties:\n" ++
        String.join properties ++
        "suppressed missing-validator warnings: " ++ f.suppressText ++ "\n" := by
  -- a label is there where a rule is, so listing fails where resolving does
  have hroot : (f.root.mapM fun spec => spec.listedAs "root") =
      f.rootRule?.map (Option.map Rule.label) := by
    cases hspec : f.root with
    | none => simp [rootRule?, hspec, Except.map, pure, Except.pure]
    | some spec =>
      simp only [rootRule?, hspec, Option.mapM_some, PropertySpec.listedAs]
      cases spec.resolve "root" <;> rfl
  have hproperties : (f.properties.mapM fun p =>
      (p.2.listedAs p.1).map fun label => "  " ++ p.1 ++ ": " ++ label ++ "\n") =
      f.propertyRules.map fun rules =>
        rules.map fun p => "  " ++ p.1 ++ ": " ++ p.2.label ++ "\n" := by
    rw [propertyRules, ← mapM_map_eq]
    congr 1
    funext ⟨key, spec⟩
    simp only [PropertySpec.listedAs]
    cases spec.resolve key <;> rfl
  rw [hroot, hproperties, describe]
  cases f.rootRule? with
  | error e => rfl
  | ok root =>
    cases f.propertyRules with
    | error e => rfl
    | ok properties => cases root <;> rfl

/-! ## Guards of kinds -/

/-- The last character of a text. -/
def lastChar? (s : String) : Option Char := s.toList.getLast?

/-- A text ends as its second half does. -/
theorem lastChar?_append {s t : String} {c : Char} (ht : lastChar? t = some c) :
    lastChar? (s ++ t) = some c := by
  unfold lastChar? at ht ⊢
  rw [String.toList_append, List.getLast?_append, ht]
  rfl

namespace Guard

/-- The guards made of kinds without options, of what may be absent, and of arrays. -/
inductive OfKinds : Guard → Prop where
  | plain {kind : String} {g : Guard} (hkind : plainGuard? kind = some g) : OfKinds g
  | nullable {base : Guard} (hbase : OfKinds base) : OfKinds (base.nullable [])
  | arrayOf {element : Guard} (helement : OfKinds element) : OfKinds element.arrayOf

theorem lastChar?_label_nullable (base : Guard) (sentinels : List Value) :
    lastChar? (base.nullable sentinels).label = some 'h' :=
  lastChar?_append (by decide)

theorem lastChar?_label_arrayOf (element : Guard) : lastChar? element.arrayOf.label = some ']' :=
  lastChar?_append (by decide)

/-- **An array is never labelled like what may be absent**, whatever either is made of. -/
theorem label_arrayOf_ne_nullable (element base : Guard) (sentinels : List Value) :
    element.arrayOf.label ≠ (base.nullable sentinels).label := by
  intro h
  have hlast := lastChar?_label_arrayOf element
  rw [h, lastChar?_label_nullable] at hlast
  exact absurd hlast (by decide)

section

variable {kind : String} {g : Guard}

/-- A guard of a kind without options is labelled with the name of the kind. -/
theorem label_of_plainGuard (h : plainGuard? kind = some g) : g.label = kind := by
  unfold plainGuard? at h
  split at h <;> cases h <;> rfl

/-- The name of such a kind ends unlike a suffix, and unlike the word for no constraint. -/
theorem lastChar?_of_plainGuard (h : plainGuard? kind = some g) :
    lastChar? g.label ∉ [some 'h', some ']', some 'd'] := by
  unfold plainGuard? at h
  split at h <;> cases h <;> decide

namespace OfKinds

/-- How a label ends gives the outermost construct of the guard. -/
theorem cases_lastChar? (hg : g.OfKinds) :
    (lastChar? g.label ∉ [some 'h', some ']', some 'd'] ∧ ∃ kind, plainGuard? kind = some g) ∨
      (lastChar? g.label = some 'h' ∧ ∃ base : Guard, g = base.nullable [] ∧ base.OfKinds) ∨
      (lastChar? g.label = some ']' ∧ ∃ element : Guard, g = element.arrayOf ∧ element.OfKinds) := by
  cases hg with
  | plain hkind => exact .inl ⟨lastChar?_of_plainGuard hkind, _, hkind⟩
  | nullable hbase => exact .inr (.inl ⟨lastChar?_label_nullable _ _, _, rfl, hbase⟩)
  | arrayOf helement => exact .inr (.inr ⟨lastChar?_label_arrayOf _, _, rfl, helement⟩)

/-- No such guard is labelled like what is ignored. -/
theorem label_ne_ignored (hg : g.OfKinds) : g.label ≠ Rule.ignore.label := by
  intro h
  -- the word for no constraint ends in a letter that ends no other label
  have hlast : lastChar? g.label = some 'd' := by
    rw [h]
    decide
  rcases hg.cases_lastChar? with ⟨hplain, -⟩ | ⟨hnullable, -⟩ | ⟨harray, -⟩
  · exact hplain (by simp [hlast])
  · exact absurd (hlast.symm.trans hnullable) (by decide)
  · exact absurd (hlast.symm.trans harray) (by decide)

/-- **Their labels tell such guards apart**: by induction on the one, the end of the label gives the
outermost construct of the other, and what is left of the label is that of what stands inside. -/
theorem eq_of_label_eq (hg : g.OfKinds) :
    ∀ {g' : Guard}, g'.OfKinds → g.label = g'.label → g = g' := by
  induction hg with
  | plain hkind =>
    intro g' hg' hlabel
    have hlast := lastChar?_of_plainGuard hkind
    rw [hlabel] at hlast
    rcases hg'.cases_lastChar? with ⟨-, kind', hkind'⟩ | ⟨hnullable, -⟩ | ⟨harray, -⟩
    · rw [label_of_plainGuard hkind, label_of_plainGuard hkind'] at hlabel
      rw [hlabel, hkind'] at hkind
      exact (Option.some.inj hkind).symm
    · exact absurd (by simp [hnullable]) hlast
    · exact absurd (by simp [harray]) hlast
  | @nullable base hbase ih =>
    intro g' hg' hlabel
    have hlast := lastChar?_label_nullable base []
    rw [hlabel] at hlast
    -- only what may be absent ends so, and without the suffix the labels are those inside
    rcases hg'.cases_lastChar? with ⟨hplain, -⟩ | ⟨-, base', rfl, hbase'⟩ | ⟨harray, -⟩
    · exact absurd (by simp [hlast]) hplain
    · rw [ih hbase' ((String.append_left_inj " | nullish").mp hlabel)]
    · exact absurd (hlast.symm.trans harray) (by decide)
  | @arrayOf element helement ih =>
    intro g' hg' hlabel
    have hlast := lastChar?_label_arrayOf element
    rw [hlabel] at hlast
    rcases hg'.cases_lastChar? with ⟨hplain, -⟩ | ⟨hnullable, -⟩ | ⟨-, element', rfl, helement'⟩
    · exact absurd (by simp [hlast]) hplain
    · exact absurd (hlast.symm.trans hnullable) (by decide)
    · rw [ih helement' ((String.append_left_inj "[]").mp hlabel)]

end OfKinds

end

end Guard

/-! ## Rules without enumerations -/

/-- No constraint, or a guard of kinds. -/
def Rule.OfKinds : Rule → Prop
  | ignore => True
  | check g => g.OfKinds

namespace Rule.OfKinds

variable {rule rule' : Rule}

/-- Arrays of what is made of kinds are. -/
theorem arrayGuard (h : rule.OfKinds) : rule.arrayGuard.OfKinds := by
  cases rule with
  | ignore => exact .plain (show plainGuard? "array" = some .array from rfl)
  | check element => exact .arrayOf h

/-- **Rules without enumerations are told apart by their labels.** -/
theorem eq_of_label_eq (h : rule.OfKinds) (h' : rule'.OfKinds) (hlabel : rule.label = rule'.label) :
    rule = rule' := by
  cases rule with
  | ignore =>
    cases rule' with
    | ignore => rfl
    | check g' => exact absurd hlabel.symm (Guard.OfKinds.label_ne_ignored h')
  | check g =>
    cases rule' with
    | ignore => exact absurd hlabel (Guard.OfKinds.label_ne_ignored h)
    | check g' => rw [Guard.OfKinds.eq_of_label_eq h h' hlabel]

end Rule.OfKinds

namespace PropertySpec

/-- Entering the elements of arrays, one comes to no enumeration. -/
def EnumerationFree (spec : PropertySpec) : Prop :=
  ∀ levels inner, spec.Reaches levels inner → inner.kind ≠ "member-of" ∧ inner.kind ≠ "key-of"

namespace EnumerationFree

variable {spec itemSpec : PropertySpec}

theorem kind_ne (h : spec.EnumerationFree) : spec.kind ≠ "member-of" ∧ spec.kind ≠ "key-of" :=
  h 0 spec (.here spec)

theorem items (h : spec.EnumerationFree) (hkind : spec.kind = "array-of")
    (hitems : spec.items? = some itemSpec) : itemSpec.EnumerationFree :=
  fun levels inner hreaches => h (levels + 1) inner (.inside hkind hitems hreaches)

/-- A spec is free of enumerations if it is none itself and its elements are free of them. -/
theorem of_items (hkind : spec.kind ≠ "member-of" ∧ spec.kind ≠ "key-of")
    (hitems : ∀ itemSpec, spec.items? = some itemSpec → itemSpec.EnumerationFree) :
    spec.EnumerationFree := by
  intro levels inner hreaches
  cases hreaches with
  | here => exact hkind
  | inside _ hitem hinner => exact hitems _ hitem _ inner hinner

end EnumerationFree

/-- Being nullable adds a suffix to a guard of kinds. -/
theorem ofKinds_wrap {g : Guard} (nullable : Bool) (hg : g.OfKinds) : (wrap nullable g).OfKinds := by
  cases nullable with
  | false => exact hg
  | true => exact .nullable hg

/-- A spec without enumerations comes to no constraint or a guard of kinds, by induction on how it
comes to its rule. -/
theorem ofKinds_of_yields {spec : PropertySpec} {rule : Rule} (hrule : spec.Yields rule)
    (hfree : spec.EnumerationFree) : rule.OfKinds := by
  induction hrule with
  | ignored hkind => trivial
  | plain hkind => exact ofKinds_wrap _ (.plain hkind)
  | arrayOf hkind hitems helement ih =>
    exact ofKinds_wrap _ (ih (hfree.items hkind hitems)).arrayGuard
  | memberOf hkind hvalues => exact absurd hkind hfree.kind_ne.1
  | keyOf hkind hvalues => exact absurd hkind hfree.kind_ne.2

/-- A spec is listed under the label of its rule. -/
theorem listedAs_eq_ok_iff {spec : PropertySpec} {property label : String} :
    spec.listedAs property = .ok label ↔
      ∃ rule, spec.resolve property = .ok rule ∧ rule.label = label := by
  unfold listedAs
  cases spec.resolve property with
  | error e => simp [Except.map]
  | ok rule => simp [Except.map]

/-- **A spec without enumerations resolves to a rule of kinds.** -/
theorem ofKinds_of_resolve {spec : PropertySpec} {property : String} {rule : Rule}
    (h : spec.resolve property = .ok rule) (hfree : spec.EnumerationFree) : rule.OfKinds := by
  have hyields := spec.comesTo_resolve property
  rw [h] at hyields
  exact ofKinds_of_yields hyields hfree

/-! ## The headline -/

/-- **Specs without enumerations that are listed under one label have the same rule.** So they accept
the same values, and a capture around the guard of either yields the same diagnostics on every value,
from whatever sessions with the same settings. -/
theorem agree_of_listedAs {spec spec' : PropertySpec} {property property' label : String}
    (hfree : spec.EnumerationFree) (hfree' : spec'.EnumerationFree)
    (h : spec.listedAs property = .ok label) (h' : spec'.listedAs property' = .ok label) :
    ∃ rule rule', spec.resolve property = .ok rule ∧ spec'.resolve property' = .ok rule' ∧
      rule = rule' ∧
      ∀ v, (spec.Accepts v ↔ spec'.Accepts v) ∧
        ∀ settings, ∃ passed ds, (passed = true ↔ spec.Accepts v) ∧
          ∀ s t : Session, s.settings = settings → t.settings = settings →
            (Run.capture (rule.guard.verdict v) s).1 = some (passed, ds) ∧
              (Run.capture (rule'.guard.verdict v) t).1 = some (passed, ds) := by
  obtain ⟨rule, hrule, hlabel⟩ := listedAs_eq_ok_iff.mp h
  obtain ⟨rule', hrule', hlabel'⟩ := listedAs_eq_ok_iff.mp h'
  -- one label, so one rule, and the rest is said of that
  obtain rfl : rule = rule' := (ofKinds_of_resolve hrule hfree).eq_of_label_eq
    (ofKinds_of_resolve hrule' hfree') (hlabel.trans hlabel'.symm)
  have hreads := spec.reads_resolve hrule
  have hreads' := spec'.reads_resolve hrule'
  refine ⟨rule, rule, hrule, hrule', rfl, fun v => ⟨?_, fun settings => ?_⟩⟩
  · obtain ⟨passed, hpassed, hiff, -⟩ := hreads.decides v (Session.start .standard)
    obtain ⟨passed', hpassed', hiff', -⟩ := hreads'.decides v (Session.start .standard)
    obtain rfl := Option.some.inj (hpassed.symm.trans hpassed')
    exact hiff.symm.trans hiff'
  · -- the guard has no code of a caller in it, so what a capture yields is fixed by the settings
    obtain ⟨passed, ds, hpassed, hcapture⟩ := Guard.capture_of_code_nil hreads.code settings v
    obtain ⟨verdict, hverdict, hiff, -⟩ := hreads.decides v (Session.start .standard)
    obtain rfl := Option.some.inj ((hpassed _).symm.trans hverdict)
    refine ⟨passed, ds, hiff, fun s t hs ht => ?_⟩
    rw [hcapture s hs, hcapture t ht]
    exact ⟨rfl, rfl⟩

/-- Nullable arrays of nullable arrays: once of anything, and once of elements that are ignored. -/
theorem agree_of_listedAs_nested :
    let spec : PropertySpec := .detailed "array-of" true
      (some (.detailed "array" true none none)) none
    let spec' : PropertySpec := .detailed "array-of" true
      (some (.detailed "array-of" true (some (.bare "any")) none)) none
    spec.EnumerationFree ∧ spec'.EnumerationFree ∧
      spec.listedAs "tags" = .ok "array | nullish[] | nullish" ∧
      spec'.listedAs "rows" = .ok "array | nullish[] | nullish" ∧
      ∃ rule', spec'.resolve "rows" = .ok rule' ∧
        (Run.capture (rule'.guard.verdict (.array [.null, .bool true]))
          (Session.start .standard)).1 = some (false, [.memberFailed]) := by
  intro spec spec'
  have hfree : spec.EnumerationFree := .of_items (by decide) fun _ hitems => by
    cases hitems
    exact .of_items (by decide) fun _ hnone => by cases hnone
  have hfree' : spec'.EnumerationFree := .of_items (by decide) fun _ hitems => by
    cases hitems
    refine .of_items (by decide) fun _ hinner => ?_
    cases hinner
    exact .of_items (by decide) fun _ hnone => by cases hnone
  have hlisted : spec.listedAs "tags" = .ok "array | nullish[] | nullish" := by decide
  have hlisted' : spec'.listedAs "rows" = .ok "array | nullish[] | nullish" := by decide
  obtain ⟨rule, rule', hrule, hrule', -, hagree⟩ := agree_of_listedAs hfree hfree' hlisted hlisted'
  obtain ⟨-, hcaptured⟩ := hagree (.array [.null, .bool true])
  obtain ⟨passed, ds, -, hsame⟩ := hcaptured .standard
  obtain ⟨hfirst, hsecond⟩ := hsame (Session.start .standard) (Session.start .standard) rfl rfl
  refine ⟨hfree, hfree', hlisted, hlisted', rule', hrule', ?_⟩
  -- what the guard of the first spec does is computed, and the second does the same
  cases hrule
  rw [hsecond, ← hfirst]
  rfl

/-- The two orders of the suffixes. -/
example :
    (detailed "array-of" false (some (.detailed "number" true none none)) none).listedAs "n" =
        .ok "number | nullish[]" ∧
      (detailed "array-of" true (some (.bare "number")) none).listedAs "n" =
        .ok "number[] | nullish" := by decide

end PropertySpec

end RecordGuard
