import RecordGuard.Value.Basic

/-!
# Own keys

The own entries of a value are listed under keys that do not repeat: those of an array because
positions have different decimal texts, those of an object because its fields never repeat a key.

The fields of `Value.object` are a plain list: objects contain values, and the kernel does not admit
a proof about the keys of that list inside the inductive type. So what never fails to hold of an
object is carried one level up, by structures that pair the data with the proof. Each of them is proved
once, where such data is built, and what follows takes the structure.

* **`FieldMap`** — fields that do not repeat a key, as inserting makes them.
* **`Candidate`** — a value whose own keys do not repeat, as every value has it.
* **`Candidate.nodup_ownKeys`** — own keys do not repeat, be it those of an object or an array.
-/

namespace RecordGuard

/-- The keys of the own entries, in order; there are none where there are no own entries. -/
def Value.ownKeys (v : Value) : List String := Fields.keys (v.entries?.getD [])

/-- If the value is an object, its fields do not repeat a key. -/
def Value.KeysDistinct (v : Value) : Prop := ∀ fields, v.fields? = some fields → fields.Distinct

/-- A number is read back from its decimal digits, so no two share a text. -/
theorem repr_injective : Function.Injective Nat.repr := by
  intro m n h
  have hdigits : Nat.toDigits 10 m = Nat.toDigits 10 n := by
    rw [← Nat.toList_repr, ← Nat.toList_repr, h]
  rw [← Nat.ofDigitChars_ten_toDigits (n := m), hdigits, Nat.ofDigitChars_ten_toDigits]

namespace Fields

variable {α : Type}

instance (fields : Fields α) : Decidable fields.Distinct :=
  inferInstanceAs (Decidable fields.keys.Nodup)

/-- The keys of a list are the texts of its positions, in order. -/
theorem keys_ofList (items : List α) :
    (Fields.ofList items).keys = (List.range items.length).map Nat.repr := by
  rw [Fields.keys, Fields.ofList, List.map_map, List.range_eq_range', ← List.zipIdx_map_snd 0 items,
    List.map_map]
  rfl

end Fields

/-! ## Finite maps -/

/-- Fields that do not repeat a key: a finite map whose keys stand in an order. -/
structure FieldMap (α : Type) where
  fields : Fields α
  distinct : fields.Distinct

namespace FieldMap

variable {α : Type}

def empty : FieldMap α := ⟨[], List.nodup_nil⟩

/-- The elements of a list under the decimal texts of their positions. -/
def ofList (items : List α) : FieldMap α where
  fields := Fields.ofList items
  distinct := by
    rw [Fields.Distinct, Fields.keys_ofList]
    exact List.Pairwise.map _ (fun _ _ hne h => hne (repr_injective h)) List.nodup_range

end FieldMap

/-! ## Candidates -/

/-- A value whose own keys do not repeat. -/
structure Candidate where
  value : Value
  distinct : value.KeysDistinct

/-- An object, made of a finite map. -/
def Candidate.object (m : FieldMap Value) : Candidate where
  value := .object m.fields
  distinct := by
    rintro fields ⟨⟩
    exact m.distinct

theorem Value.isObjectLike_eq_isSome (v : Value) : v.isObjectLike = v.entries?.isSome := by
  cases v <;> rfl

/-- **Own keys do not repeat.** -/
theorem Candidate.nodup_ownKeys (v : Candidate) : v.value.ownKeys.Nodup := by
  obtain ⟨v, hv⟩ := v
  -- positions have different texts; an object carries the proof; nothing else has own entries
  cases v with
  | array items => exact (FieldMap.ofList items).distinct
  | object fields => exact hv fields rfl
  | _ => exact List.nodup_nil

end RecordGuard
