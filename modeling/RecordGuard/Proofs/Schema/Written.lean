import RecordGuard.Document.Load
import RecordGuard.Proofs.Document.Proper
import RecordGuard.Proofs.Schema.Reading

/-!
# How schema files are written

What a schema file looks like as the tree of a text, said without its reader: a mapping of fields
with known names, each of them absent or of its shape. The reader accepts these files, and, in the
place of a mapping of such fields, also the sequence of what the first of them hold.

* **`PropertySpec.WrittenBy`**, **`SchemaFile.WrittenBy`** — the format, with or without sequences.
* **`PropertySpec.readAsWritten`**, **`SchemaFile.ofJson_eq_ok_iff`** — what is read is what is
  written, by induction on the tree.
* **`SchemaFile.parse_eq_ok_iff_writtenBy`** — the headline: a file is accepted exactly if it is
  written so, and what comes of it is what it writes.
* **`SchemaFile.parse_eq_ok_sequence`** — a file that is accepted although it is no mapping.
-/

namespace RecordGuard

/-! ## Looking up -/

namespace Fields

variable {α : Type}

theorem get?_cons (key name : String) (x : α) (rest : Fields α) :
    get? ((key, x) :: rest) name = if key = name then some x else rest.get? name := rfl

/-- Names that are given to elements are some of the names, in their order. -/
theorem keys_zip_sublist (names : List String) (items : List α) :
    (keys (names.zip items)).Sublist names := by
  induction names generalizing items with
  | nil => exact .slnil
  | cons name names ih =>
    cases items with
    | nil => exact List.nil_sublist _
    | cons x items => exact (ih items).cons_cons name

end Fields

/-! ## Fields of a format -/

namespace Json

/-- Null, or something that `R` reads. -/
inductive OrNull {α : Type} (R : α → Json → Prop) : Option α → Json → Prop where
  | null : OrNull R none .null
  | given {a : α} {j : Json} (h : R a j) : OrNull R (some a) j

/-- What a field says that need not be there. -/
inductive Says {α : Type} (R : α → Json → Prop) (default : α) : Option Json → α → Prop where
  | absent : Says R default none default
  | given {a : α} {j : Json} (h : R a j) : Says R default (some j) a

/-- A field that is not there says the default. -/
@[simp] theorem says_none {α : Type} {R : α → Json → Prop} {default a : α} :
    Says R default none a ↔ a = default := by
  constructor
  · rintro ⟨⟩
    rfl
  · rintro rfl
    exact .absent

/-- A field that is there says what is read of it. -/
@[simp] theorem says_some {α : Type} {R : α → Json → Prop} {default a : α} {j : Json} :
    Says R default (some j) a ↔ R a j := by
  constructor
  · intro h
    cases h with
    | given h => exact h
  · exact .given

/-- A field that says a text is there. -/
theorem says_text_iff {field : Option Json} {s : String} :
    Says (fun o j => ∃ t, j = .string t ∧ o = some t) none field (some s) ↔
      field = some (.string s) := by
  cases field <;> simp

/-- What a field says is also what a wider reading makes of it. -/
theorem Says.imp {α : Type} {R S : α → Json → Prop} {default a : α} {field : Option Json}
    (h : Says R default field a) (himp : ∀ j, R a j → S a j) : Says S default field a := by
  cases h with
  | absent => exact .absent
  | given h => exact .given (himp _ h)

/-- `j.Gives sequences names parts`: a tree gives these parts, each under one of the names. Where
`sequences` are allowed it may also list what stands under the first of the names. -/
inductive Gives (sequences : Bool) (names : List String) : Json → Fields Json → Prop where
  | mapping {fields : Fields Json} (hknown : ∀ key ∈ fields.keys, key ∈ names) :
      Gives sequences names (.object fields) fields
  | sequence {items : List Json} (hallowed : sequences = true)
      (hlength : items.length ≤ names.length) :
      Gives sequences names (.array items) (names.zip items)

/-- A mapping gives its fields, if it has no name besides. -/
theorem gives_object_iff {sequences : Bool} {names : List String} {fields parts : Fields Json} :
    (object fields).Gives sequences names parts ↔
      (∀ key ∈ fields.keys, key ∈ names) ∧ parts = fields := by
  constructor
  · rintro ⟨hknown⟩
    exact ⟨hknown, rfl⟩
  · rintro ⟨hknown, rfl⟩
    exact .mapping hknown

/-- Sequences, too, give known names only, since the names come from their places. -/
theorem Gives.known {sequences : Bool} {names : List String} {j : Json} {parts : Fields Json}
    (h : j.Gives sequences names parts) : ∀ key ∈ parts.keys, key ∈ names := by
  cases h with
  | mapping hknown => exact hknown
  | sequence => exact fun key hkey => (Fields.keys_zip_sublist _ _).subset hkey

/-- What is given without sequences is given with them. -/
theorem Gives.weaken {names : List String} {j : Json} {parts : Fields Json}
    (h : j.Gives false names parts) : j.Gives true names parts := by
  cases h with
  | mapping hknown => exact .mapping hknown
  | sequence hallowed => cases hallowed

theorem properFields_zip {names : List String} (hnames : names.Nodup) {items : List Json}
    (hitems : ∀ x ∈ items, x.Proper) : ProperFields (names.zip items) :=
  ⟨(Fields.keys_zip_sublist _ _).nodup hnames, fun e he => hitems e.2 (List.of_mem_zip he).2⟩

/-- The parts that a proper tree gives make a proper mapping. -/
theorem Proper.of_gives {j : Json} (hj : j.Proper) {sequences : Bool} {names : List String}
    (hnames : names.Nodup) {parts : Fields Json} (h : j.Gives sequences names parts) :
    ProperFields parts := by
  cases h with
  | mapping =>
    cases hj with
    | object hkeys hfields => exact ⟨hkeys, hfields⟩
  | sequence =>
    cases hj with
    | array hitems =>
      exact properFields_zip hnames hitems

/-- A sequence gives names to its elements, if there are enough of them. -/
theorem gives_array_iff {names : List String} {items : List Json} {parts : Fields Json} :
    (array items).Gives true names parts ↔
      items.length ≤ names.length ∧ parts = names.zip items := by
  constructor
  · intro h
    cases h with
    | sequence _ hlength => exact ⟨hlength, rfl⟩
  · rintro ⟨hlength, rfl⟩
    exact .sequence rfl hlength

end Json

/-! ## The format -/

/-- The options of a property spec. -/
def PropertySpec.optionNames : List String := ["type", "nullable", "items", "values"]

/-- A property spec is written as the name of its kind, or with its options. -/
inductive PropertySpec.WrittenBy (sequences : Bool) : PropertySpec → Json → Prop where
  | bare (kind : String) : WrittenBy sequences (.bare kind) (.string kind)
  | detailed {j : Json} {parts : Fields Json} {kind : String} {nullable : Bool}
      {items : Option PropertySpec} {values : Option (Fields Json)}
      (hparts : j.Gives sequences optionNames parts)
      (hkind : parts.get? "type" = some (.string kind))
      (hnullable : Json.Says (fun b j => j = .bool b) false (parts.get? "nullable") nullable)
      (hitems : Json.Says (Json.OrNull (WrittenBy sequences)) none (parts.get? "items") items)
      (hvalues : Json.Says (Json.OrNull fun fields j => j = .object fields) none
        (parts.get? "values") values) :
      WrittenBy sequences (.detailed kind nullable items values) j

inductive SuppressSpec.WrittenBy : SuppressSpec → Json → Prop where
  | all (suppressed : Bool) : WrittenBy (.all suppressed) (.bool suppressed)
  | keys (keys : List String) : WrittenBy (.keys keys) (.array (keys.map .string))

namespace SchemaFile

/-- Properties are written as a mapping, in their order. -/
def PropertiesWrittenBy (sequences : Bool) (properties : List (String × PropertySpec)) (j : Json) :
    Prop :=
  ∃ fields, j = .object fields ∧ List.Forall₂
    (fun e p => p.1 = e.1 ∧ p.2.WrittenBy sequences e.2) fields properties

/-- The fields of a schema file. -/
def fieldNames : List String := ["name", "root", "suppress_missing", "properties"]

inductive WrittenBy (sequences : Bool) (f : SchemaFile) (j : Json) : Prop where
  | fields {parts : Fields Json} (hparts : j.Gives sequences fieldNames parts)
      (hname : parts.get? "name" = some (.string f.name))
      (hroot : Json.Says (Json.OrNull (PropertySpec.WrittenBy sequences)) none
        (parts.get? "root") f.root)
      (hsuppress : Json.Says (Json.OrNull SuppressSpec.WrittenBy) none
        (parts.get? "suppress_missing") f.suppressMissing)
      (hproperties : Json.Says (PropertiesWrittenBy sequences) [] (parts.get? "properties")
        f.properties)

end SchemaFile

/-! ## Reading property specs -/

namespace SpecParts

/-- `p'` is `p` with the options that the fields give. -/
def Updates (p p' : SpecParts) (fields : Fields Json) : Prop :=
  Json.Says (fun kind j => ∃ s, j = .string s ∧ kind = some s) p.kind (fields.get? "type") p'.kind ∧
  Json.Says (fun b j => j = .bool b) p.nullable (fields.get? "nullable") p'.nullable ∧
  Json.Says (Json.OrNull (PropertySpec.WrittenBy true)) p.items (fields.get? "items") p'.items ∧
  Json.Says (Json.OrNull fun fields j => j = .object fields) p.values (fields.get? "values")
    p'.values

variable {p p' : SpecParts} {j : Json}

theorem setKind_eq_some_iff :
    p.setKind j = some p' ↔ ∃ s, j = .string s ∧ p' = { p with kind := some s } := by
  cases j <;> simp [setKind, eq_comm]

theorem setNullable_eq_some_iff :
    p.setNullable j = some p' ↔ ∃ b, j = .bool b ∧ p' = { p with nullable := b } := by
  cases j <;> simp [setNullable, eq_comm]

/-- The values of an enumeration are given by a mapping, whatever is in it, or withheld by null. -/
theorem setValues_eq_some_iff : p.setValues j = some p' ↔
    ∃ values, Json.OrNull (fun fields j => j = .object fields) values j ∧
      p' = { p with values } := by
  constructor
  · intro h
    cases j <;> cases h
    · exact ⟨.none, .null, rfl⟩
    · exact ⟨some _, .given rfl, rfl⟩
  · rintro ⟨values, hvalues, rfl⟩
    cases hvalues with
    | null => rfl
    | given h =>
      subst h
      rfl

end SpecParts

namespace PropertySpec

/-- What `j` is read as is what it writes. -/
def ReadAsWritten (j : Json) : Prop :=
  ∀ spec, ofJson? j = some spec ↔ WrittenBy true spec j

/-- The spec of the elements is null or a spec itself. -/
theorem ofItems?_eq_some_iff {j : Json} (hj : ReadAsWritten j) (items : Option PropertySpec) :
    ofItems? j = some items ↔ Json.OrNull (WrittenBy true) items j := by
  cases items with
  | none =>
    constructor
    · intro h
      unfold ofItems? at h
      split at h
      · exact .null
      · simp at h
    · rintro ⟨⟩
      simp [ofItems?]
  | some spec =>
    -- from null no spec is read in any case, so looking for null first changes nothing
    have hsome : ofItems? j = some (some spec) ↔ ofJson? j = some spec := by
      unfold ofItems?
      split
      · simp [ofJson?]
      · simp
    rw [hsome, hj]
    constructor
    · exact .given
    · intro h
      cases h with
      | given h => exact h

/-- The options of a mapping are set one after the other, each by the only field that has its name. -/
theorem ofFields?_eq_some_iff {fields : Fields Json} (hdistinct : fields.Distinct)
    (hread : ∀ e ∈ fields, ReadAsWritten e.2) (p p' : SpecParts) :
    ofFields? p fields = some p' ↔
      (∀ key ∈ fields.keys, key ∈ optionNames) ∧ p.Updates p' fields := by
  induction fields generalizing p with
  | nil =>
    obtain ⟨kind, nullable, items, values⟩ := p
    obtain ⟨kind', nullable', items', values'⟩ := p'
    simp [ofFields?, SpecParts.Updates, Fields.get?, Fields.keys]
    grind
  | cons entry rest ih =>
    obtain ⟨key, j⟩ := entry
    obtain ⟨hkey, hrest⟩ := List.nodup_cons.mp hdistinct
    have habsent : Fields.get? rest key = none := Fields.get?_eq_none hkey
    rw [List.forall_mem_cons] at hread
    have ih := ih hrest hread.2
    have hread := hread.1
    -- no later field sets this option again, so it stays what this field gives
    unfold ofFields?
    split
    case h_5 => simp_all [optionNames, Fields.keys_cons]
    all_goals
      simp only [Option.bind_eq_some_iff, ih, SpecParts.setKind_eq_some_iff,
        SpecParts.setNullable_eq_some_iff, ofItems?_eq_some_iff hread,
        SpecParts.setValues_eq_some_iff, SpecParts.Updates, Fields.get?_cons, habsent,
        Fields.keys_cons, List.forall_mem_cons]
      simp [optionNames, -Bool.exists_bool]
      grind

/-- A sequence is read as the mapping of the first names to its elements. -/
theorem ofJson?_array (items : List Json) : ofJson? (.array items) =
    if items.length ≤ optionNames.length then
      (ofFields? .none (optionNames.zip items)).bind SpecParts.spec?
    else none := by
  match items with
  | [] => simp [ofJson?, ofFields?, optionNames, SpecParts.none, SpecParts.spec?]
  | [_] | [_, _] | [_, _, _] | [_, _, _, _] =>
    simp [ofJson?, ofFields?, optionNames, Option.bind_assoc]
  | _ :: _ :: _ :: _ :: _ :: _ => simp [ofJson?, optionNames]

/-- What is written with options, as options. -/
theorem writtenBy_iff_updates {j : Json} (hbare : ∀ kind, j ≠ .string kind) (spec : PropertySpec) :
    WrittenBy true spec j ↔ ∃ parts, j.Gives true optionNames parts ∧
      ∃ p : SpecParts, SpecParts.none.Updates p parts ∧ p.spec? = some spec := by
  constructor
  · intro h
    cases h with
    | bare kind => exact absurd rfl (hbare kind)
    | detailed hparts hkind hnullable hitems hvalues =>
      have htext := Json.says_text_iff.mpr hkind
      exact ⟨_, hparts, ⟨some _, _, _, _⟩, ⟨htext, hnullable, hitems, hvalues⟩, rfl⟩
  · rintro ⟨parts, hparts, ⟨kind, nullable, items, values⟩, ⟨hkind, hnullable, hitems, hvalues⟩, h⟩
    -- a spec comes of the parts only if a kind is among them
    obtain ⟨s, rfl, rfl⟩ := Option.map_eq_some_iff.mp h
    exact .detailed hparts (Json.says_text_iff.mp hkind) hnullable hitems hvalues

theorem ofFields?_bind_eq_some_iff {parts : Fields Json} (hdistinct : parts.Distinct)
    (hread : ∀ e ∈ parts, ReadAsWritten e.2) (spec : PropertySpec) :
    (ofFields? .none parts).bind SpecParts.spec? = some spec ↔
      (∀ key ∈ parts.keys, key ∈ optionNames) ∧
        ∃ p : SpecParts, SpecParts.none.Updates p parts ∧ p.spec? = some spec := by
  simp only [Option.bind_eq_some_iff, ofFields?_eq_some_iff hdistinct hread, and_assoc,
    exists_and_left]

/-- **The property spec of a tree is the one that the tree writes.** -/
theorem readAsWritten {j : Json} (hj : j.Proper) : ReadAsWritten j := by
  induction hj with
  | null | bool | number =>
    intro spec
    rw [writtenBy_iff_updates (by simp)]
    constructor
    · intro h
      simp [ofJson?] at h
    · rintro ⟨parts, ⟨⟩, -⟩
  | string s =>
    intro spec
    constructor
    · intro h
      rw [ofJson?] at h
      cases h
      exact .bare s
    · intro h
      cases h with
      | bare => rw [ofJson?]
      | detailed hparts => cases hparts
  | @array items hitems ih =>
    intro spec
    have hsub := Fields.keys_zip_sublist optionNames items
    have hdistinct : Fields.Distinct (optionNames.zip items) := hsub.nodup (by decide)
    have hread : ∀ e ∈ optionNames.zip items, ReadAsWritten e.2 := fun e he =>
      ih e.2 (List.of_mem_zip he).2
    rw [writtenBy_iff_updates (by simp), ofJson?_array]
    -- the names come with the places, so only the number of elements can be wrong
    split
    · next hlength =>
      rw [ofFields?_bind_eq_some_iff hdistinct hread]
      simp only [Json.gives_array_iff, hlength, true_and, exists_eq_left, and_iff_right_iff_imp]
      exact fun _ key hkey => hsub.subset hkey
    · next hlength => simp [Json.gives_array_iff, hlength]
  | object hkeys hfields ih =>
    intro spec
    rw [writtenBy_iff_updates (by simp), ofJson?, ofFields?_bind_eq_some_iff hkeys ih]
    simp [Json.gives_object_iff]

end PropertySpec

/-! ## Reading schema files -/

/-- A list of keys is read of texts alone. -/
theorem Json.texts?_eq_some_iff (items : List Json) (keys : List String) :
    texts? items = some keys ↔ items = keys.map .string := by
  fun_induction texts? items generalizing keys with
  | case1 => cases keys <;> simp
  | case2 s rest ih =>
    rw [Option.map_eq_some_iff]
    cases keys with
    | nil => simp
    | cons key keys =>
      have ih := ih keys
      grind
  | case3 items hnil hcons =>
    cases keys with
    | nil => simpa using hnil
    | cons key keys => simpa using hcons key (keys.map .string)

/-- A suppression is a truth value or a list of keys. -/
theorem SuppressSpec.ofJson?_eq_some_iff {j : Json} {spec : SuppressSpec} :
    ofJson? j = some spec ↔ spec.WrittenBy j := by
  constructor
  · intro h
    unfold ofJson? at h
    split at h
    · cases h
      exact .all _
    · obtain ⟨keys, hkeys, rfl⟩ := Option.map_eq_some_iff.mp h
      rw [(Json.texts?_eq_some_iff _ _).mp hkeys]
      exact .keys keys
    · cases h
  · intro h
    cases h with
    | all => rfl
    | keys keys => exact Option.map_eq_some_iff.mpr ⟨keys, (Json.texts?_eq_some_iff _ _).mpr rfl, rfl⟩

theorem forall₂_congr_mem {α β : Type} {R S : α → β → Prop} {xs : List α} {ys : List β}
    (h : ∀ x ∈ xs, ∀ y, R x y ↔ S x y) : List.Forall₂ R xs ys ↔ List.Forall₂ S xs ys :=
  ⟨fun hR => (forall₂_and_mem hR).imp fun x y hxy => (h x hxy.1 y).mp hxy.2.2,
    fun hS => (forall₂_and_mem hS).imp fun x y hxy => (h x hxy.1 y).mpr hxy.2.2⟩

/-- Readings that all succeed, side by side with what they give. -/
theorem mapM_eq_ok_iff {α β ε : Type} {f : α → Except ε β} {xs : List α} {ys : List β} :
    xs.mapM f = .ok ys ↔ List.Forall₂ (fun x y => f x = .ok y) xs ys := by
  refine ⟨forall₂_of_mapM, fun h => ?_⟩
  induction h with
  | nil => rfl
  | cons hxy _ ih =>
    rw [List.mapM_cons, hxy, ih]
    rfl

namespace SchemaParts

/-- `p'` is `p` with the fields of a schema file. -/
def Updates (p p' : SchemaParts) (fields : Fields Json) : Prop :=
  Json.Says (fun name j => ∃ s, j = .string s ∧ name = some s) p.name (fields.get? "name") p'.name ∧
  Json.Says (Json.OrNull (PropertySpec.WrittenBy true)) p.root (fields.get? "root") p'.root ∧
  Json.Says (Json.OrNull SuppressSpec.WrittenBy) p.suppressMissing
    (fields.get? "suppress_missing") p'.suppressMissing ∧
  Json.Says (fun properties j => j = .object properties) p.properties (fields.get? "properties")
    p'.properties

variable {p p' : SchemaParts} {j : Json}

theorem setName_eq_ok_iff :
    p.setName j = .ok p' ↔ ∃ s, j = .string s ∧ p' = { p with name := some s } := by
  cases j <;> simp [setName, eq_comm]

/-- The root is null or a property spec, read as the spec of elements is. -/
theorem setRoot_eq_ok_iff (hj : PropertySpec.ReadAsWritten j) : p.setRoot j = .ok p' ↔
    ∃ root, Json.OrNull (PropertySpec.WrittenBy true) root j ∧ p' = { p with root } := by
  simp only [← PropertySpec.ofItems?_eq_some_iff hj]
  unfold setRoot PropertySpec.ofItems?
  split
  · simp [eq_comm]
  · split <;> simp [*, eq_comm]

/-- The suppression is null or one of its two forms. -/
theorem setSuppression_eq_ok_iff : p.setSuppression j = .ok p' ↔
    ∃ suppressMissing, Json.OrNull SuppressSpec.WrittenBy suppressMissing j ∧
      p' = { p with suppressMissing } := by
  constructor
  · intro h
    unfold setSuppression at h
    split at h
    · cases h
      exact ⟨.none, .null, rfl⟩
    split at h
    · next hspec =>
      cases h
      exact ⟨some _, .given (SuppressSpec.ofJson?_eq_some_iff.mp hspec), rfl⟩
    · cases h
  · rintro ⟨suppressMissing, hj, rfl⟩
    cases hj with
    | null => rfl
    | given h =>
      rw [← SuppressSpec.ofJson?_eq_some_iff] at h
      unfold setSuppression
      split
      · cases h
      · rw [h]

theorem setProperties_eq_ok_iff : p.setProperties j = .ok p' ↔
    ∃ properties, j = .object properties ∧ p' = { p with properties } := by
  cases j <;> simp [setProperties, eq_comm]

/-- The fields of a mapping are set one after the other, each by the only one that has its name. -/
theorem foldlM_setField_eq_ok_iff {fields : Fields Json} (hdistinct : fields.Distinct)
    (hread : ∀ e ∈ fields, PropertySpec.ReadAsWritten e.2) (p p' : SchemaParts) :
    fields.foldlM setField p = .ok p' ↔
      (∀ key ∈ fields.keys, key ∈ SchemaFile.fieldNames) ∧ p.Updates p' fields := by
  induction fields generalizing p with
  | nil =>
    obtain ⟨name, root, suppressMissing, properties⟩ := p
    obtain ⟨name', root', suppressMissing', properties'⟩ := p'
    simp [Updates, Fields.get?, Fields.keys, pure, Except.pure]
    grind
  | cons entry rest ih =>
    obtain ⟨key, j⟩ := entry
    obtain ⟨hkey, hrest⟩ := List.nodup_cons.mp hdistinct
    have habsent : Fields.get? rest key = .none := Fields.get?_eq_none hkey
    rw [List.forall_mem_cons] at hread
    have ih := ih hrest hread.2
    have hread := hread.1
    -- as for the options of a property spec, each field is set once
    simp only [List.foldlM_cons, bind_eq_ok_iff, ih]
    unfold setField
    split
    all_goals
      rename_i heq
      cases heq
    case h_5 => simp_all [SchemaFile.fieldNames, Fields.keys_cons]
    all_goals
      simp only [setName_eq_ok_iff, setRoot_eq_ok_iff hread, setSuppression_eq_ok_iff,
        setProperties_eq_ok_iff, Updates, Fields.get?_cons, habsent, Fields.keys_cons,
        List.forall_mem_cons]
      simp [SchemaFile.fieldNames]
      grind

theorem foldlM_setters (items : List Json) :
    (setters.zip items).foldlM (fun p (set, j) => set p j) none =
      (SchemaFile.fieldNames.zip items).foldlM setField none := by
  match items with
  | [] | [_] | [_, _] | [_, _, _] | _ :: _ :: _ :: _ :: _ => rfl

/-- A sequence that is not empty is read as the mapping of the first names to its elements. -/
theorem ofJson_array {items : List Json} (hitems : items ≠ []) (p : SchemaParts) :
    ofJson (.array items) = .ok p ↔ items.length ≤ SchemaFile.fieldNames.length ∧
      (SchemaFile.fieldNames.zip items).foldlM setField none = .ok p := by
  cases items with
  | nil => exact absurd rfl hitems
  | cons x rest =>
    rw [ofJson, bind_eq_ok_iff, foldlM_setters]
    · have hlength : setters.length = SchemaFile.fieldNames.length := rfl
      rw [hlength]
      grind
    · exact hitems

/-- A file with a name is read from the parts that its tree gives. -/
theorem ofJson_eq_ok_iff {j : Json} (hj : j.Proper) {p : SchemaParts} (hname : p.name ≠ .none) :
    ofJson j = .ok p ↔ ∃ parts, j.Gives true SchemaFile.fieldNames parts ∧ none.Updates p parts := by
  -- both forms end in the same fold, over the fields or over the names given to the elements
  have hfold : ∀ {parts : Fields Json}, Json.ProperFields parts →
      (parts.foldlM setField none = .ok p ↔
        (∀ key ∈ parts.keys, key ∈ SchemaFile.fieldNames) ∧ none.Updates p parts) := fun h =>
    foldlM_setField_eq_ok_iff h.keys (fun e he => PropertySpec.readAsWritten (h.values e he)) _ _
  cases hj with
  | null | bool | number | string =>
    constructor
    · rintro ⟨⟩
    · rintro ⟨parts, ⟨⟩, -⟩
  | @object fields hkeys hvalues =>
    have hobject : ofJson (.object fields) = fields.foldlM setField none := rfl
    rw [hobject, hfold ⟨hkeys, hvalues⟩]
    simp [Json.gives_object_iff]
  | @array items hitems =>
    by_cases hempty : items = []
    · -- the only sequence that is refused for what it lacks: it has no name
      subst hempty
      constructor
      · rintro ⟨⟩
      · rintro ⟨parts, ⟨⟩, hnone, -⟩
        exact absurd (Json.says_none.mp hnone) hname
    · rw [ofJson_array hempty, hfold (Json.properFields_zip (by decide) hitems)]
      constructor
      · rintro ⟨hlength, -, hupdates⟩
        exact ⟨_, .sequence rfl hlength, hupdates⟩
      · rintro ⟨parts, hparts, hupdates⟩
        have hknown := hparts.known
        obtain ⟨hlength, rfl⟩ := Json.gives_array_iff.mp hparts
        exact ⟨hlength, hknown, hupdates⟩

end SchemaParts

namespace SchemaFile

/-- A property keeps its key. -/
theorem property_eq_ok_iff {e : String × Json} (he : PropertySpec.ReadAsWritten e.2)
    (p : String × PropertySpec) :
    property e = .ok p ↔ p.1 = e.1 ∧ p.2.WrittenBy true e.2 := by
  obtain ⟨key, j⟩ := e
  obtain ⟨key', spec⟩ := p
  rw [← he spec]
  unfold property
  split
  grind

/-- The properties are looked into after the fields, each on its own. -/
theorem says_properties_iff {parts : Fields Json} (hparts : Json.ProperFields parts)
    (properties : List (String × PropertySpec)) :
    Json.Says (PropertiesWrittenBy true) [] (parts.get? "properties") properties ↔
      ∃ fields, Json.Says (fun fields j => j = .object fields) [] (parts.get? "properties") fields ∧
        fields.mapM property = .ok properties := by
  cases hfield : parts.get? "properties" with
  | none => simp [pure, Except.pure, eq_comm]
  | some j =>
    have hj := hparts.values _ (Fields.mem_of_get? hfield)
    simp only [Json.says_some]
    refine exists_congr fun fields => and_congr_right ?_
    rintro rfl
    cases hj with
    | object _ hvalues =>
      rw [mapM_eq_ok_iff]
      exact forall₂_congr_mem fun e he p =>
        (property_eq_ok_iff (PropertySpec.readAsWritten (hvalues e he)) p).symm

/-- **The schema file of a tree is the one that the tree writes.** -/
theorem ofJson_eq_ok_iff {j : Json} (hj : j.Proper) (f : SchemaFile) :
    ofJson j = .ok f ↔ f.WrittenBy true j := by
  unfold ofJson
  rw [bind_eq_ok_iff]
  constructor
  · rintro ⟨p, hp, h⟩
    split at h
    · cases h
    · next name hname =>
      rw [SchemaParts.ofJson_eq_ok_iff hj (by simp [hname])] at hp
      obtain ⟨parts, hparts, htext, hroot, hsuppress, hfields⟩ := hp
      obtain ⟨properties, hproperties, h⟩ := bind_eq_ok_iff.mp h
      cases h
      refine .fields hparts ?_ hroot hsuppress ?_
      · rw [hname] at htext
        exact Json.says_text_iff.mp htext
      · rw [says_properties_iff (hj.of_gives (by decide) hparts)]
        exact ⟨_, hfields, hproperties⟩
  · rintro ⟨hparts, hname, hroot, hsuppress, hproperties⟩
    -- the properties are known as written, and are to be found as a mapping that is looked into
    rw [says_properties_iff (hj.of_gives (by decide) hparts)] at hproperties
    obtain ⟨fields, hfields, hproperties⟩ := hproperties
    have htext := Json.says_text_iff.mpr hname
    refine ⟨⟨some f.name, f.root, f.suppressMissing, fields⟩, ?_, ?_⟩
    · rw [SchemaParts.ofJson_eq_ok_iff hj (by simp)]
      exact ⟨_, hparts, htext, hroot, hsuppress, hfields⟩
    · simp only [hproperties]
      rfl

end SchemaFile

/-! ## Mappings alone -/

/-- Null stays null, and what is given is read in the wider way. -/
theorem Json.OrNull.imp {α : Type} {R S : α → Json → Prop} {o : Option α} {j : Json}
    (h : OrNull R o j) (himp : ∀ a, o = some a → R a j → S a j) : OrNull S o j := by
  cases h with
  | null => exact .null
  | given h => exact .given (himp _ rfl h)

/-- What is written with mappings alone is written. -/
theorem PropertySpec.WrittenBy.weaken : ∀ {spec : PropertySpec} {j : Json},
    spec.WrittenBy false j → spec.WrittenBy true j
  | .bare _, _, .bare kind => .bare kind
  | .detailed _ _ none _, _, .detailed hparts hkind hnullable hitems hvalues =>
    .detailed hparts.weaken hkind hnullable (hitems.imp fun _ h => h.imp nofun) hvalues
  | .detailed _ _ (some inner) _, _, .detailed hparts hkind hnullable hitems hvalues =>
    have hinner : ∀ {j : Json}, inner.WrittenBy false j → inner.WrittenBy true j := weaken
    .detailed hparts.weaken hkind hnullable
      (hitems.imp fun _ h => h.imp fun _ heq hspec => by cases heq; exact hinner hspec) hvalues

namespace SchemaFile

/-- A file that is written with mappings alone is written. -/
theorem WrittenBy.weaken {f : SchemaFile} {j : Json} (h : f.WrittenBy false j) :
    f.WrittenBy true j := by
  obtain ⟨hparts, hname, hroot, hsuppress, hproperties⟩ := h
  refine .fields hparts.weaken hname ?_ hsuppress ?_
  · exact hroot.imp fun _ h => h.imp fun _ _ => PropertySpec.WrittenBy.weaken
  · refine hproperties.imp fun j h => ?_
    obtain ⟨fields, rfl, h⟩ := h
    exact ⟨fields, rfl, h.imp fun _ _ hp => ⟨hp.1, hp.2.weaken⟩⟩

/-- **A file is accepted exactly if it is written so**, and it is read as what it writes: its name,
root and suppression, and every property with its spec, in their order. Every file of mappings is
among them; besides, sequences stand for mappings. -/
theorem parse_eq_ok_iff_writtenBy {content : String} {format : Format} {j : Json}
    (hread : format.read? content = some j) (origin : String) (f : SchemaFile) :
    (parse content format origin = .ok f ↔ f.WrittenBy true j) ∧
      (f.WrittenBy false j → parse content format origin = .ok f) := by
  have hparse : parse content format origin = .ok f ↔ f.WrittenBy true j := by
    rw [← ofJson_eq_ok_iff (Format.proper_of_read? hread)]
    unfold parse
    rw [hread]
    cases hj : ofJson j <;> simp [hj]
  exact ⟨hparse, fun h => hparse.mpr h.weaken⟩

/-- The spec of the elements is written as a sequence, in a file of mappings. -/
theorem parse_eq_ok_iff_writtenBy_nested :
    let content := "\x7b\"properties\": \x7b\"a\": \x7b\"items\": [\"string\", true], \"type\": " ++
      "\"array-of\"\x7d\x7d, \"name\": \"T\", \"root\": null\x7d"
    let spec : Json := .object
      [("items", .array [.string "string", .bool true]), ("type", .string "array-of")]
    let j : Json :=
      .object [("properties", .object [("a", spec)]), ("name", .string "T"), ("root", .null)]
    let f : SchemaFile := ⟨"T", none, none,
      [("a", .detailed "array-of" false (some (.detailed "string" true none none)) none)]⟩
    Format.json.read? content = some j ∧ f.WrittenBy true j ∧
      parse content .json "t" = .ok f := by
  intro content spec j f
  have hread : Format.json.read? content = some j := by
    simp only [content]
    rfl
  have hitems : PropertySpec.WrittenBy true (.detailed "string" true none none)
      (.array [.string "string", .bool true]) :=
    .detailed (.sequence rfl (by decide)) rfl (.given rfl) .absent .absent
  have hspec : PropertySpec.WrittenBy true
      (.detailed "array-of" false (some (.detailed "string" true none none)) none) spec :=
    .detailed (.mapping (by decide)) rfl .absent (.given (.given hitems)) .absent
  have hwritten : f.WrittenBy true j :=
    .fields (.mapping (by decide)) rfl (.given .null) .absent
      (.given ⟨_, rfl, .cons ⟨rfl, hspec⟩ .nil⟩)
  exact ⟨hread, hwritten, (parse_eq_ok_iff_writtenBy hread "t" f).1.mpr hwritten⟩

/-- A sequence is accepted that is no mapping: its only element counts as the name. -/
theorem parse_eq_ok_sequence :
    Format.json.read? "[\"T\"]" = some (.array [.string "T"]) ∧
      parse "[\"T\"]" .json "t" = .ok ⟨"T", none, none, []⟩ ∧
      ∀ f : SchemaFile, ¬ f.WrittenBy false (.array [.string "T"]) := by
  refine ⟨rfl, rfl, fun f hf => ?_⟩
  obtain ⟨hparts⟩ := hf
  cases hparts with
  | sequence hallowed => cases hallowed

end SchemaFile

end RecordGuard
