import RecordGuard.Document.Load
import RecordGuard.Proofs.Document.Proper
import RecordGuard.Proofs.Schema.Reading
import RecordGuard.Proofs.Value.Equality

/-!
# Documents as values

A document is a value of the same tree. What a document cannot hold its value does not hold either:
nothing is undefined in it, there is no date and every number is finite.

* **`Json.SameTree`**, **`Json.sameTree_iff`** — the value of a document, said without the function.
* **`Value.exists_ofJson_of_mem_parts`** — what is inside the value of a document is the value of a
  document.
* **`Value.plain_of_mem_parts`**, **`Value.equal_self_ofJson`** — nothing in such a value is undefined,
  a date or a NaN, so it equals itself.
* **`Json.exists_of_loadDocument`** — a document that is loaded is such a value.
-/

namespace RecordGuard

/-! ## Induction -/

/-- Induction over trees. -/
theorem Json.induction {motive : Json → Prop} (null : motive null) (bool : ∀ b, motive (bool b))
    (number : ∀ n, motive (number n)) (string : ∀ s, motive (string s))
    (array : ∀ items, (∀ x ∈ items, motive x) → motive (array items))
    (object : ∀ fields, (∀ e ∈ fields, motive e.2) → motive (object fields)) (j : Json) :
    motive j :=
  @Json.rec motive (fun items => ∀ x ∈ items, motive x) (fun fields => ∀ e ∈ fields, motive e.2)
    (fun e => motive e.2) null bool number string array object
    (List.forall_mem_nil _) (fun _ _ hx hrest => List.forall_mem_cons.mpr ⟨hx, hrest⟩)
    (List.forall_mem_nil _) (fun _ _ he hrest => List.forall_mem_cons.mpr ⟨he, hrest⟩)
    (fun _ _ h => h) j

/-! ## The same tree -/

/-- The value of a document: of the same kind, the elements of an array in their order, and an object
with the same keys in their order. -/
inductive Json.SameTree : Json → Value → Prop where
  | null : SameTree .null .null
  | bool (b : Bool) : SameTree (.bool b) (.bool b)
  | number (n : JsonNumber) : SameTree (.number n) (.number n.toNumber)
  | string (s : String) : SameTree (.string s) (.string s)
  | array {items : List Json} {values : List Value} (h : List.Forall₂ SameTree items values) :
      SameTree (.array items) (.array values)
  | object {fields : Fields Json} {values : Fields Value} (hkeys : values.keys = fields.keys)
      (h : List.Forall₂ SameTree (fields.map (·.2)) (values.map (·.2))) :
      SameTree (.object fields) (.object values)

/-- The elements become values one by one. -/
theorem Value.ofJsonItems_eq_map (items : List Json) :
    Value.ofJsonItems items = items.map Value.ofJson := by
  induction items with
  | nil => rfl
  | cons j rest ih => rw [Value.ofJsonItems, ih, List.map_cons]

@[simp] theorem Value.keys_ofJsonFields (fields : Fields Json) :
    Fields.keys (Value.ofJsonFields fields) = fields.keys := by
  rw [ofJsonFields_eq_map, Fields.keys, List.map_map]
  rfl

theorem Value.values_ofJsonFields (fields : Fields Json) :
    (Value.ofJsonFields fields).map (·.2) = (fields.map (·.2)).map Value.ofJson := by
  rw [ofJsonFields_eq_map, List.map_map, List.map_map]
  rfl

namespace Json

/-- **The value of a document has its tree.** -/
theorem sameTree_ofJson (j : Json) : j.SameTree (Value.ofJson j) := by
  induction j using Json.induction with
  | null => exact .null
  | bool b => exact .bool b
  | number n => exact .number n
  | string s => exact .string s
  | array items ih =>
    refine .array ?_
    rw [Value.ofJsonItems_eq_map, List.forall₂_map_right_iff]
    exact List.forall₂_same.mpr ih
  | object fields ih =>
    refine .object (Value.keys_ofJsonFields fields) ?_
    rw [Value.values_ofJsonFields, List.forall₂_map_right_iff]
    exact List.forall₂_same.mpr (List.forall_mem_map.mpr ih)

/-- **No other value has the tree of a document.** -/
theorem sameTree_iff {j : Json} {v : Value} : j.SameTree v ↔ v = Value.ofJson j := by
  refine ⟨fun h => ?_, fun h => h ▸ sameTree_ofJson j⟩
  induction j using Json.induction generalizing v with
  | null | bool | number | string =>
    cases h
    rfl
  | array items ih =>
    cases h with
    | @array _ values h =>
      have hvalues : items.map Value.ofJson = values := by
        rw [← List.forall₂_eq_eq_eq, List.forall₂_map_left_iff]
        exact (forall₂_and_mem h).imp fun j v hjv => (ih j hjv.1 hjv.2.2).symm
      rw [Value.ofJson, Value.ofJsonItems_eq_map, hvalues]
  | object fields ih =>
    cases h with
    | @object _ values hkeys h =>
      have hvalues : (fields.map (·.2)).map Value.ofJson = values.map (·.2) := by
        rw [← List.forall₂_eq_eq_eq, List.forall₂_map_left_iff]
        refine (forall₂_and_mem h).imp fun j v hjv => ?_
        obtain ⟨e, he, rfl⟩ := List.mem_map.mp hjv.1
        exact (ih e he hjv.2.2).symm
      -- keys and values are those of the document, so the fields are
      have hpairs : values = Value.ofJsonFields fields := by
        rw [List.zip_of_prod hkeys hvalues.symm, ← Value.values_ofJsonFields]
        exact (List.zip_of_prod (Value.keys_ofJsonFields fields) rfl).symm
      rw [Value.ofJson, hpairs]

end Json

/-! ## What is inside -/

namespace Value

/-- **What is inside the value of a document is the value of a document.** -/
theorem exists_ofJson_of_mem_parts {j : Json} (hj : j.WellFormed) {x : Value}
    (hx : x ∈ (ofJson j).parts) : ∃ k : Json, k.WellFormed ∧ x = ofJson k := by
  induction hj with
  | null => exact ⟨_, .null, List.mem_singleton.mp hx⟩
  | bool b => exact ⟨_, .bool b, List.mem_singleton.mp hx⟩
  | number hn => exact ⟨_, .number hn, List.mem_singleton.mp hx⟩
  | string s => exact ⟨_, .string s, List.mem_singleton.mp hx⟩
  -- the array itself is one, and what is in its elements is by induction
  | @array items hitems ih =>
    rw [ofJson, parts, itemParts_eq_flatMap, ofJsonItems_eq_map, List.mem_cons,
      List.flatMap_map] at hx
    rcases hx with rfl | hx
    · exact ⟨.array items, .array hitems, by rw [ofJson, ofJsonItems_eq_map]⟩
    · obtain ⟨k, hk, hx⟩ := List.mem_flatMap.mp hx
      exact ih k hk hx
  | @object fields hkeys hfields ih =>
    rw [ofJson, parts, fieldParts_eq_flatMap, ofJsonFields_eq_map, List.mem_cons,
      List.flatMap_map] at hx
    rcases hx with rfl | hx
    · exact ⟨.object fields, .object hkeys hfields, by rw [ofJson, ofJsonFields_eq_map]⟩
    · obtain ⟨e, he, hx⟩ := List.mem_flatMap.mp hx
      exact ih e he hx

end Value

/-- The value of a well-formed document: where no mapping repeats a key, no object does. -/
def ProperValue.ofJson {j : Json} (hj : j.WellFormed) : ProperValue where
  value := Value.ofJson j
  everywhere := by
    intro x hx fields hfields
    obtain ⟨k, hk, rfl⟩ := Value.exists_ofJson_of_mem_parts hj hx
    cases hk with
    | null | bool | number | string | array => cases hfields
    | object hkeys =>
      cases hfields
      rwa [Fields.Distinct, Value.keys_ofJsonFields]

namespace Value

variable {j : Json}

/-- A number of a document is finite. -/
theorem isFinite_of_ofJson (hj : j.WellFormed) {n : Number} (hn : n ∈ (ofJson j).number?) :
    n.isFinite = true := by
  cases hj with
  | null | bool | string | array | object => cases hn
  | number hfits =>
    cases hn
    exact JsonNumber.isFinite_toNumber hfits

/-- Where keys do not repeat, inserting the fields one after the other leaves them as they are. -/
theorem ofJson_object {fields : Fields Json} (hkeys : fields.Distinct) :
    ofJson (.object fields) =
      .object (Fields.ofPairs (fields.map fun e => (e.1, ofJson e.2))) := by
  let m : FieldMap Value :=
    ⟨ofJsonFields fields, by rwa [Fields.Distinct, keys_ofJsonFields]⟩
  rw [← ofJsonFields_eq_map]
  exact congrArg object m.ofPairs_fields.symm

/-- **Nothing inside the value of a document is undefined, a date, a NaN or an infinity.** -/
theorem plain_of_mem_parts (hj : j.WellFormed) {x : Value} (hx : x ∈ (ofJson j).parts) :
    x ≠ .undefined ∧ (∀ i, x ≠ .date i) ∧
      ∀ n, x = .number n → n.isNaN = false ∧ n.isInfinite = false := by
  obtain ⟨k, hk, rfl⟩ := exists_ofJson_of_mem_parts hj hx
  refine ⟨by cases k <;> nofun, fun i => by cases k <;> nofun, fun n hn => ?_⟩
  have hfinite : n.isFinite = true := isFinite_of_ofJson hk (by rw [hn]; rfl)
  exact ⟨Number.isNaN_of_isFinite hfinite, Number.isInfinite_of_isFinite hfinite⟩

/-- So no NaN is inside. -/
theorem nanFree_ofJson (hj : j.WellFormed) : (ofJson j).NaNFree := by
  intro x hx n hn
  obtain ⟨k, hk, rfl⟩ := exists_ofJson_of_mem_parts hj hx
  exact Number.isNaN_of_isFinite (isFinite_of_ofJson hk hn)

/-- **The value of a document equals itself.** -/
theorem equal_self_ofJson (hj : j.WellFormed) : (ofJson j).equal (ofJson j) = true :=
  (equal_self_iff (.ofJson hj)).mpr (nanFree_ofJson hj)

end Value

/-! ## Documents that are loaded -/

/-- **A document that is loaded is the value of a well-formed tree.** -/
theorem Json.exists_of_loadDocument {r : Reader} {path : String} {x : Value}
    (h : loadDocument r path = .ok x) : ∃ j : Json, j.WellFormed ∧ x = Value.ofJson j := by
  unfold loadDocument at h
  split at h
  · cases h
  · dsimp only at h
    split at h
    · next hread =>
      cases h
      exact ⟨_, Format.wellFormed_of_read? hread, rfl⟩
    · cases h

end RecordGuard
