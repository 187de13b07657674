import Mathlib.Tactic.Lift
import RecordGuard.Proofs.Value.Fields

/-!
# Parts of a value

A value contains others: the elements of an array, the values under the keys of an object, and what
these contain. Many statements about values are about all of their parts.

* **`Value.induction`** — induction over values, with a hypothesis for each value directly inside.
* **`Value.parts`**, **`Value.Everywhere`** — a value and everything inside it, and what holds of all
  of these.
* **`Throughout`** — a value with the proof that something holds everywhere in it, and
  **`Throughout.induction`**, induction over such values: whatever is directly inside is one, too.
* **`ProperValue`** — a value with the proof that no object anywhere inside repeats a key
  (`Value.Proper`), as every value that is built by inserting fields is (`ProperValue.ofPairs`).
* **`Value.NaNFree`** — no NaN anywhere inside.
-/

namespace RecordGuard

namespace Value

/-! ## Induction -/

/-- Induction over values. -/
theorem induction {motive : Value → Prop} (undefined : motive undefined) (null : motive null)
    (bool : ∀ b, motive (bool b)) (number : ∀ n, motive (number n))
    (string : ∀ s, motive (string s)) (date : ∀ i, motive (date i))
    (array : ∀ items, (∀ x ∈ items, motive x) → motive (array items))
    (object : ∀ fields, (∀ e ∈ fields, motive e.2) → motive (object fields)) (v : Value) :
    motive v :=
  -- the lists inside a value carry what holds of their members
  @Value.rec motive (fun items => ∀ x ∈ items, motive x) (fun fields => ∀ e ∈ fields, motive e.2)
    (fun e => motive e.2) undefined null bool number string date array object
    (List.forall_mem_nil _) (fun _ _ hx hrest => List.forall_mem_cons.mpr ⟨hx, hrest⟩)
    (List.forall_mem_nil _) (fun _ _ he hrest => List.forall_mem_cons.mpr ⟨he, hrest⟩)
    (fun _ _ h => h) v

/-! ## Parts -/

mutual

/-- The value itself and everything inside it. -/
def parts : Value → List Value
  | array items => array items :: itemParts items
  | object fields => object fields :: fieldParts fields
  | v => [v]

/-- The elements of an array and everything inside them. -/
def itemParts : List Value → List Value
  | [] => []
  | x :: rest => x.parts ++ itemParts rest

/-- The values of the fields of an object and everything inside them. -/
def fieldParts : List (String × Value) → List Value
  | [] => []
  | (_, x) :: rest => x.parts ++ fieldParts rest

end

/-- `P` holds of the value and of everything inside it. -/
def Everywhere (P : Value → Prop) (v : Value) : Prop := ∀ w ∈ v.parts, P w

instance (P : Value → Prop) [DecidablePred P] (v : Value) : Decidable (v.Everywhere P) :=
  inferInstanceAs (Decidable (∀ w ∈ v.parts, P w))

section

variable {P : Value → Prop}

theorem itemParts_eq_flatMap (items : List Value) : itemParts items = items.flatMap parts := by
  induction items with
  | nil => rfl
  | cons x rest ih => rw [itemParts, ih, List.flatMap_cons]

theorem fieldParts_eq_flatMap (fields : Fields Value) :
    fieldParts fields = fields.flatMap fun e => e.2.parts := by
  induction fields with
  | nil => rfl
  | cons e rest ih => rw [fieldParts, ih, List.flatMap_cons]

theorem everywhere_array {items : List Value} :
    (array items).Everywhere P ↔ P (array items) ∧ ∀ x ∈ items, x.Everywhere P := by
  rw [Everywhere, parts, itemParts_eq_flatMap, List.forall_mem_cons, List.forall_mem_flatMap]
  rfl

theorem everywhere_object {fields : Fields Value} :
    (object fields).Everywhere P ↔ P (object fields) ∧ ∀ e ∈ fields, e.2.Everywhere P := by
  rw [Everywhere, parts, fieldParts_eq_flatMap, List.forall_mem_cons, List.forall_mem_flatMap]
  rfl

end

/-! ## Proper values -/

instance (v : Value) : Decidable v.KeysDistinct :=
  inferInstanceAs (Decidable (∀ fields ∈ v.fields?, fields.Distinct))

/-- No object inside repeats a key, at any depth. -/
def Proper (v : Value) : Prop := v.Everywhere KeysDistinct

instance (v : Value) : Decidable v.Proper := inferInstanceAs (Decidable (v.Everywhere KeysDistinct))

theorem proper_array {items : List Value} : (array items).Proper ↔ ∀ x ∈ items, x.Proper := by
  rw [Proper, everywhere_array]
  exact and_iff_right (by rintro _ ⟨⟩)

/-- An object is proper if it does not repeat a key and the values under its keys are proper. -/
theorem proper_object {fields : Fields Value} :
    (object fields).Proper ↔ fields.Distinct ∧ ∀ e ∈ fields, e.2.Proper := by
  rw [Proper, everywhere_object]
  -- the fields in question are those of the object itself
  refine and_congr_left fun _ => ⟨fun h => h fields rfl, ?_⟩
  rintro h _ ⟨⟩
  exact h

/-! ## Values that carry a proof -/

end Value

/-- A value with the proof that `P` holds of it and of everything inside it. -/
structure Throughout (P : Value → Prop) where
  value : Value
  everywhere : value.Everywhere P

namespace Throughout

variable {P : Value → Prop}

instance : CanLift Value (Throughout P) Throughout.value (Value.Everywhere P) :=
  ⟨fun v h => ⟨⟨v, h⟩, rfl⟩⟩

instance : CanLift (String × Value) (String × Throughout P) (Prod.map id Throughout.value)
    (·.2.Everywhere P) :=
  ⟨fun e h => ⟨(e.1, ⟨e.2, h⟩), rfl⟩⟩

/-- Induction over values in which `P` holds everywhere. What is directly inside such a value is one
itself, so the hypotheses of the induction come with the proof. -/
theorem induction {motive : Throughout P → Prop} (undefined : ∀ h, motive ⟨.undefined, h⟩)
    (null : ∀ h, motive ⟨.null, h⟩) (bool : ∀ b h, motive ⟨.bool b, h⟩)
    (number : ∀ n h, motive ⟨.number n, h⟩) (string : ∀ s h, motive ⟨.string s, h⟩)
    (date : ∀ i h, motive ⟨.date i, h⟩)
    (array : ∀ items (h : (Value.array items).Everywhere P),
      (∀ x (hx : x ∈ items), motive ⟨x, (Value.everywhere_array.mp h).2 x hx⟩) →
        motive ⟨.array items, h⟩)
    (object : ∀ fields (h : (Value.object fields).Everywhere P),
      (∀ e (he : e ∈ fields), motive ⟨e.2, (Value.everywhere_object.mp h).2 e he⟩) →
        motive ⟨.object fields, h⟩)
    (v : Throughout P) : motive v := by
  obtain ⟨v, h⟩ := v
  induction v using Value.induction with
  | undefined => exact undefined h
  | null => exact null h
  | bool b => exact bool b h
  | number n => exact number n h
  | string s => exact string s h
  | date i => exact date i h
  | array items ih => exact array items h fun x hx => ih x hx _
  | object fields ih => exact object fields h fun e he => ih e he _

end Throughout

/-- A value in which no object repeats a key, at any depth. -/
abbrev ProperValue := Throughout Value.KeysDistinct

namespace ProperValue

theorem proper (v : ProperValue) : v.value.Proper := v.everywhere

/-- An object made by inserting fields, of values of which none repeats a key. -/
def ofPairs (pairs : List (String × ProperValue)) : ProperValue where
  value := .object (Fields.ofPairs (pairs.map fun p => (p.1, p.2.value)))
  everywhere := by
    refine Value.proper_object.mpr ⟨(FieldMap.ofPairs _).distinct, fun e he => ?_⟩
    obtain ⟨p, -, rfl⟩ := List.mem_map.mp (Fields.mem_of_mem_ofPairs he)
    exact p.2.proper

end ProperValue

namespace Value

/-! ## Values without a NaN -/

/-- No number inside is a NaN, at any depth. -/
def NaNFree (v : Value) : Prop := v.Everywhere fun w => ∀ n ∈ w.number?, n.isNaN = false

instance (v : Value) : Decidable v.NaNFree :=
  inferInstanceAs (Decidable (v.Everywhere fun w => ∀ n ∈ w.number?, n.isNaN = false))

theorem nanFree_number {n : Number} : (number n).NaNFree ↔ n.isNaN = false := by
  simp [NaNFree, Everywhere, parts, number?]

theorem nanFree_array {items : List Value} : (array items).NaNFree ↔ ∀ x ∈ items, x.NaNFree := by
  rw [NaNFree, everywhere_array]
  exact and_iff_right (by rintro _ ⟨⟩)

theorem nanFree_object {fields : Fields Value} :
    (object fields).NaNFree ↔ ∀ e ∈ fields, e.2.NaNFree := by
  rw [NaNFree, everywhere_object]
  exact and_iff_right (by rintro _ ⟨⟩)

end Value

end RecordGuard
