import RecordGuard.Proofs.Document.Values
import RecordGuard.Proofs.Guard.Equality
import RecordGuard.Proofs.Schema.Written

/-!
# Declared values

The values that a schema file declares for its enumerations are trees inside the tree of the file. So
they are well-formed as that is, the value of each equals itself, and an enumeration accepts all that
it declares.

* **`PropertySpec.declarations`**, **`SchemaFile.declarations`** — what is declared in a file.
* **`SchemaFile.wellFormed_declarations`** — the declared values are well-formed, by induction on the
  specs of the file.
* **`accepts_declared`** — an enumeration accepts its declared values with their keys in any order.
* **`PropertySpec.resolve_date`** — the rule of a spec for dates.
* **`Value.ofJson_faithful`** — the headline.
-/

namespace RecordGuard

/-! ## What is declared -/

/-- The declarations of a spec and of the specs of elements in it. -/
def PropertySpec.declarations : PropertySpec → List (Fields Json)
  | bare _ => []
  | detailed _ _ none values => values.toList
  | detailed _ _ (some items) values => values.toList ++ declarations items

def SchemaFile.declarations (f : SchemaFile) : List (Fields Json) :=
  f.root.toList.flatMap PropertySpec.declarations ++
    f.properties.flatMap fun p => p.2.declarations

/-! ## The declared values of a file -/

namespace Json

/-- The parts that a tree gives are well-formed if the tree is. -/
theorem WellFormed.of_gives {j : Json} (hj : j.WellFormed) {sequences : Bool} {names : List String}
    {parts : Fields Json} (h : j.Gives sequences names parts) : ∀ e ∈ parts, e.2.WellFormed := by
  cases h with
  | mapping =>
    cases hj with
    | object _ hfields => exact hfields
  | sequence =>
    cases hj with
    | array hitems => exact fun e he => hitems e.2 (List.of_mem_zip he).2

/-- A field that says something is there, and it is not null. -/
theorem exists_of_says {α : Type} {R : α → Json → Prop} {field : Option Json} {a : α}
    (h : Says (OrNull R) none field (some a)) : ∃ j, field = some j ∧ R a j := by
  cases h with
  | given h =>
    cases h with
    | given h => exact ⟨_, rfl, h⟩

end Json

/-- **What a spec declares is well-formed**, by induction on the specs of elements. -/
theorem PropertySpec.wellFormed_declarations : ∀ {spec : PropertySpec} {j : Json},
    spec.WrittenBy true j → j.WellFormed →
      ∀ values ∈ spec.declarations, ∀ e ∈ values, e.2.WellFormed
  | .bare _, _, _, _ => fun _ hvalues => nomatch hvalues
  | .detailed kind nullable items values, j, .detailed hparts _ _ hitems hvalues, hj => by
    have hfields := hj.of_gives hparts
    -- its own declarations are the fields of a mapping in the tree
    have hown : ∀ declared ∈ values.toList, ∀ e ∈ declared, e.2.WellFormed := by
      intro declared hdeclared
      obtain rfl := Option.mem_toList.mp hdeclared
      obtain ⟨k, hk, rfl⟩ := Json.exists_of_says hvalues
      cases hfields _ (Fields.mem_of_get? hk) with
      | object _ hvalues => exact hvalues
    cases items with
    | none => exact hown
    | some inner =>
      obtain ⟨k, hk, hinner⟩ := Json.exists_of_says hitems
      have hk := hfields _ (Fields.mem_of_get? hk)
      exact List.forall_mem_append.mpr ⟨hown, wellFormed_declarations hinner hk⟩

namespace SchemaFile

/-- **What a file declares is well-formed.** The declarations stand in the specs of the root and the
properties. -/
theorem wellFormed_declarations {f : SchemaFile} {j : Json} (h : f.WrittenBy true j)
    (hj : j.WellFormed) : ∀ values ∈ f.declarations, ∀ e ∈ values, e.2.WellFormed := by
  obtain @⟨parts, hparts, -, hroot, -, hproperties⟩ := h
  have hfields := hj.of_gives hparts
  refine List.forall_mem_append.mpr ⟨?_, ?_⟩
  · intro values hvalues
    obtain ⟨spec, hspec, hvalues⟩ := List.mem_flatMap.mp hvalues
    rw [Option.mem_toList.mp hspec] at hroot
    obtain ⟨k, hk, hwritten⟩ := Json.exists_of_says hroot
    exact PropertySpec.wellFormed_declarations hwritten (hfields _ (Fields.mem_of_get? hk)) _ hvalues
  · rw [List.forall_mem_flatMap]
    generalize hfield : parts.get? "properties" = field at hproperties
    generalize f.properties = properties at hproperties
    cases hproperties with
    | absent => exact List.forall_mem_nil _
    | given h =>
      obtain ⟨fields, rfl, h⟩ := h
      cases hfields _ (Fields.mem_of_get? hfield) with
      | object _ hvalues =>
        exact forall_mem_of_forall₂ (forall₂_and_mem h) fun e p hep =>
          PropertySpec.wellFormed_declarations hep.2.2.2 (hvalues e hep.1)

/-- A file that is parsed is written in a well-formed tree. -/
theorem exists_of_parse {content origin : String} {format : Format} {f : SchemaFile}
    (h : parse content format origin = .ok f) : ∃ j : Json, j.WellFormed ∧ f.WrittenBy true j := by
  unfold parse at h
  split at h
  · cases h
  · next j hread =>
    have hj := Format.wellFormed_of_read? hread
    split at h
    · next hfile =>
      cases h
      exact ⟨j, hj, (ofJson_eq_ok_iff hj.proper f).mp hfile⟩
    · cases h

end SchemaFile

/-! ## Guards of specs -/

theorem Guard.Reads.verdict_iff {g : Guard} {P : Value → Prop} (hg : g.Reads P) (v : Value)
    (s : Session) : (g.verdict v s).1 = some true ↔ P v := by
  obtain ⟨verdict, hverdict, hiff, -⟩ := hg.decides v s
  rw [Guard.verdict, hverdict, ← hiff, Option.some_inj]

theorem Guard.Reads.verdict_eq {g : Guard} {P : Value → Prop} (hg : g.Reads P) {v : Value} {b : Bool}
    (h : P v ↔ b = true) (s : Session) : (g.verdict v s).1 = some b := by
  obtain ⟨verdict, hverdict, hiff, -⟩ := hg.decides v s
  rw [Guard.verdict, hverdict, Bool.eq_iff_iff.mpr (hiff.trans h)]

/-- **An enumeration accepts what it declares**, with the keys of objects in any order. -/
theorem accepts_declared {values : Fields Json} {e : String × Json} (he : e ∈ values)
    (hj : e.2.WellFormed) {w : Value} (hw : Relation.ReflTransGen Value.Reorders (Value.ofJson e.2) w)
    (s : Session) : ((Guard.memberOf (.ofJsonFields values)).verdict w s).1 = some true := by
  have hreads := reads_memberOf values
  -- the value itself equals itself, since it comes from a document
  have hdeclared : ((Guard.memberOf (.ofJsonFields values)).verdict (Value.ofJson e.2) s).1 =
      some true :=
    (hreads.verdict_iff _ s).mpr ⟨e.1, e.2, he, Value.equal_self_ofJson hj⟩
  have hsame := Guard.accepts_eq_of_reorders hreads.code (.ofJson hj) hw
  rw [Guard.verdict, Guard.yields_accepts hreads.code] at hdeclared ⊢
  rwa [← hsame]

/-- A spec for dates has a rule, whatever else is in it. -/
theorem PropertySpec.resolve_date {spec : PropertySpec} (hkind : spec.kind = "date")
    (property : String) : spec.resolve property = .ok (wrap spec.nullable .date) := by
  cases spec with
  | bare kind =>
    obtain rfl : kind = "date" := hkind
    rfl
  | detailed kind nullable items values =>
    obtain rfl : kind = "date" := hkind
    cases items <;> rfl

theorem PropertySpec.resolve_memberOf (property : String) (nullable : Bool)
    (items : Option PropertySpec) (values : Fields Json) :
    (detailed "member-of" nullable items (some values)).resolve property =
      .ok (wrap nullable (.memberOf (.ofJsonFields values))) := by
  cases items <;> rfl

/-- A document is never a date, so what a spec for dates accepts of it is what is absent. -/
theorem PropertySpec.verdict_date {spec : PropertySpec} (hkind : spec.kind = "date")
    (property : String) {j : Json} :
    ∃ g, spec.resolve property = .ok (.check g) ∧
      ∀ s, (g.verdict (Value.ofJson j) s).1 = some (spec.nullable && (Value.ofJson j).isNull) := by
  refine ⟨_, resolve_date hkind property, fun s => ?_⟩
  have hdate : Guard.date.Reads (OfKind "date") := reads_plainGuard rfl
  have hreads := reads_wrap spec.nullable hdate
  refine hreads.verdict_eq ?_ s
  -- no tree is a date, and null is the only absent value among them
  cases j <;> simp [OfKind, Value.ofJson, Value.isNull]

/-! ## The headline -/

/-- **Documents as values.** The value of a document has the same tree, and no other value has it; where
keys do not repeat, inserting the fields of an object one after the other leaves them as they are.
Nothing inside the value of a well-formed document is undefined, a date, a NaN or an infinity.

So whatever is inside a document that is loaded equals itself, and a spec for dates rejects it, but for
null where absent values pass. And an enumeration of a schema file accepts every value that it
declares, with the keys of the objects in it in any order, and accepts nothing but what one of the
declared values equals. -/
theorem Value.ofJson_faithful :
    (∀ (j : Json) (v : Value), j.SameTree v ↔ v = ofJson j) ∧
    (∀ j : Json, j.WellFormed →
      (∀ fields, j = .object fields →
        ofJson j = .object (Fields.ofPairs (fields.map fun e => (e.1, ofJson e.2)))) ∧
      ∀ x ∈ (ofJson j).parts, x ≠ .undefined ∧ (∀ i, x ≠ .date i) ∧
        ∀ n, x = .number n → n.isNaN = false ∧ n.isInfinite = false) ∧
    (∀ r path v, loadDocument r path = .ok v →
      (∃ j : Json, j.WellFormed ∧ v = ofJson j) ∧
      ∀ x ∈ v.parts, x.equal x = true ∧
        ∀ (spec : PropertySpec) (property : String), spec.kind = "date" →
          ∃ g, spec.resolve property = .ok (.check g) ∧
            ∀ s, (g.verdict x s).1 = some (spec.nullable && x.isNull)) ∧
    (∀ content format origin f, SchemaFile.parse content format origin = .ok f →
      ∀ values ∈ f.declarations,
        (∀ property nullable items,
          (PropertySpec.detailed "member-of" nullable items (some values)).resolve property =
            .ok (PropertySpec.wrap nullable (.memberOf (.ofJsonFields values)))) ∧
        (∀ e ∈ values, ∀ w, Relation.ReflTransGen Reorders (ofJson e.2) w → ∀ s,
          ((Guard.memberOf (.ofJsonFields values)).verdict w s).1 = some true) ∧
        ∀ x s, ((Guard.memberOf (.ofJsonFields values)).verdict x s).1 = some true →
          ∃ e ∈ values, (ofJson e.2).equal x = true) := by
  refine ⟨fun _ _ => Json.sameTree_iff, fun j hj => ⟨?_, fun x => plain_of_mem_parts hj⟩,
    fun r path v hv => ?_, fun content format origin f hf values hvalues => ⟨?_, ?_, fun x s hx => ?_⟩⟩
  · rintro fields rfl
    cases hj with
    | object hkeys => exact ofJson_object hkeys
  · obtain ⟨j, hj, rfl⟩ := Json.exists_of_loadDocument hv
    refine ⟨⟨j, hj, rfl⟩, fun x hx => ?_⟩
    obtain ⟨k, hk, rfl⟩ := exists_ofJson_of_mem_parts hj hx
    exact ⟨equal_self_ofJson hk, fun spec property hkind => PropertySpec.verdict_date hkind property⟩
  · exact fun property nullable items => PropertySpec.resolve_memberOf property nullable items values
  · obtain ⟨j, hj, hwritten⟩ := SchemaFile.exists_of_parse hf
    have hdeclared := SchemaFile.wellFormed_declarations hwritten hj values hvalues
    exact fun e he w hw => accepts_declared he (hdeclared e he) hw
  · obtain ⟨key, k, hk, hequal⟩ := ((reads_memberOf values).verdict_iff x s).mp hx
    exact ⟨(key, k), hk, hequal⟩

/-- A file declares an object with a list in it, and a document holds the same with its keys the other
way round: it is accepted, and it is no date. -/
theorem Value.ofJson_faithful_reordered :
    let list : Json := .array [.number (.float ⟨0x4004000000000000⟩), .null]
    let values : Fields Json := [("A", .object [("x", .number (.integer 1)), ("y", list)])]
    let f : SchemaFile := ⟨"T", some (.detailed "member-of" false none (some values)), none, []⟩
    let schemaText := "\x7b\"name\": \"T\", \"root\": \x7b\"type\": \"member-of\", \"values\": " ++
      "\x7b\"A\": \x7b\"x\": 1, \"y\": [2.5, null]\x7d\x7d\x7d\x7d"
    let text := "\x7b\"y\": [2.5, null], \"x\": 1\x7d"
    let r : Reader := FileTree.read (.ofPaths [("d.json", some text.toUTF8)])
    let v : Value := .object [("y", ofJson list), ("x", .number (.ofInt 1))]
    SchemaFile.parse schemaText .json "t" = .ok f ∧ values ∈ f.declarations ∧
      loadDocument r "d.json" = .ok v ∧ v.equal v = true ∧
      (∃ g, (PropertySpec.bare "date").resolve "at" = .ok (.check g) ∧
        ∀ s, (g.verdict v s).1 = some false) ∧
      ∀ s, ((Guard.memberOf (.ofJsonFields values)).verdict v s).1 = some true := by
  intro list values f schemaText text r v
  -- the file as a tree, and what it writes
  let spec : Json := .object [("type", .string "member-of"), ("values", .object values)]
  have hfile : Format.json.read? schemaText =
      some (.object [("name", .string "T"), ("root", spec)]) := by
    simp only [schemaText]
    rfl
  have hspec : PropertySpec.WrittenBy true (.detailed "member-of" false none (some values)) spec :=
    .detailed (.mapping (by decide)) rfl .absent .absent (.given (.given rfl))
  have hwritten : f.WrittenBy true (.object [("name", .string "T"), ("root", spec)]) :=
    .fields (.mapping (by decide)) rfl (.given (.given hspec)) .absent .absent
  have hparse : SchemaFile.parse schemaText .json "t" = .ok f := by
    rw [SchemaFile.parse, hfile]
    dsimp only
    rw [(SchemaFile.ofJson_eq_ok_iff (Format.proper_of_read? hfile) f).mpr hwritten]
  have htext : r.text "d.json" = .ok text := by decide +kernel
  have hread : Format.json.read? text =
      some (.object [("y", list), ("x", .number (.integer 1))]) := by
    simp only [text]
    rfl
  have hformat : Format.ofPath "d.json" = .json := by decide +kernel
  have hload : loadDocument r "d.json" = .ok v := by
    rw [loadDocument, htext]
    dsimp only
    rw [hformat, hread]
    rfl
  have hdeclared : values ∈ f.declarations := List.mem_singleton_self _
  obtain ⟨-, -, hdocuments, hfiles⟩ := ofJson_faithful
  obtain ⟨hself, hdate⟩ := (hdocuments r _ v hload).2 v (List.mem_cons_self)
  obtain ⟨-, haccepts, -⟩ := hfiles schemaText .json "t" f hparse values hdeclared
  have hreorders : Reorders (ofJson (.object [("x", .number (.integer 1)), ("y", list)])) v :=
    .here (.swap _ _ _)
  exact ⟨hparse, hdeclared, hload, hself, hdate (.bare "date") "at" rfl,
    haccepts _ List.mem_cons_self v (.single hreorders)⟩

end RecordGuard
