import Mathlib.Data.List.Forall2
import Mathlib.Data.List.Nodup
import Mathlib.Data.List.Perm.Subperm
import RecordGuard.Proofs.Value.OwnKeys

/-!
# Fields as finite maps

Fields that do not repeat a key are a finite map, and what is looked up in them does not depend on
their order.

* **`FieldMap.get?_eq_some_iff`** — looking up a key finds the one field that has it.
* **`FieldMap.perm_keys`** — as many fields on the right as on the left, and every key of the left among
  them: then the keys are the same.
* **`FieldMap.Agree`** — two finite maps with the same keys and related values.
* **`FieldMap.insert`**, **`FieldMap.ofPairs`** — inserting never repeats a key, so what inserting makes
  is a finite map; and every finite map comes from inserting its fields (`FieldMap.ofPairs_fields`).
-/

namespace RecordGuard

/-! ## Lists -/

/-- Elements that stand side by side are elements of the two lists. -/
theorem forall₂_and_mem {α β : Type} {R : α → β → Prop} {xs : List α} {ys : List β}
    (h : List.Forall₂ R xs ys) : List.Forall₂ (fun x y => x ∈ xs ∧ y ∈ ys ∧ R x y) xs ys := by
  induction h with
  | nil => exact .nil
  | cons hxy _ ih =>
    refine .cons ⟨List.mem_cons_self, List.mem_cons_self, hxy⟩ (ih.imp fun x y hrest => ?_)
    exact ⟨List.mem_cons_of_mem _ hrest.1, List.mem_cons_of_mem _ hrest.2.1, hrest.2.2⟩

/-- What every element on the right has from the element beside it. -/
theorem forall_mem_of_forall₂ {α β : Type} {R : α → β → Prop} {P : β → Prop} {xs : List α}
    {ys : List β} (h : List.Forall₂ R xs ys) (hP : ∀ x y, R x y → P y) : ∀ y ∈ ys, P y := by
  induction h with
  | nil => exact List.forall_mem_nil _
  | cons hxy _ ih => exact List.forall_mem_cons.mpr ⟨hP _ _ hxy, ih⟩

/-- Lists side by side with a third one between them. -/
theorem forall₂_comp {α β γ : Type} {R : α → β → Prop} {S : β → γ → Prop} {T : α → γ → Prop}
    {xs : List α} {ys : List β} {zs : List γ} (h : List.Forall₂ R xs ys) (h' : List.Forall₂ S ys zs)
    (hcomp : ∀ x ∈ xs, ∀ y z, R x y → S y z → T x z) : List.Forall₂ T xs zs := by
  induction h generalizing zs with
  | nil =>
    cases h'
    exact .nil
  | cons hxy _ ih =>
    cases h' with
    | cons hyz hrest =>
      rw [List.forall_mem_cons] at hcomp
      exact .cons (hcomp.1 _ _ hxy hyz) (ih hrest hcomp.2)

/-- A list without its repetitions, when one more element comes. -/
theorem eraseDups_concat (keys : List String) (key : String) :
    (keys ++ [key]).eraseDups =
      if key ∈ keys then keys.eraseDups else keys.eraseDups ++ [key] := by
  rw [List.eraseDups_append]
  by_cases hkey : key ∈ keys
  · simp [List.removeAll, hkey]
  · simp [List.removeAll, hkey, List.eraseDups_cons]

namespace Fields

variable {α : Type}

/-! ## Looking up -/

theorem keys_cons (entry : String × α) (rest : Fields α) :
    keys (entry :: rest) = entry.1 :: keys rest := rfl

theorem mem_keys_of_mem {fields : Fields α} {key : String} {x : α} (h : (key, x) ∈ fields) :
    key ∈ fields.keys :=
  List.mem_map_of_mem h

/-- What is looked up is there. -/
theorem mem_of_get? {fields : Fields α} {key : String} {x : α} (h : fields.get? key = some x) :
    (key, x) ∈ fields := by
  induction fields with
  | nil => cases h
  | cons entry rest ih =>
    obtain ⟨k, y⟩ := entry
    rw [get?] at h
    split at h
    · next hkey =>
      cases hkey
      cases h
      exact List.mem_cons_self
    · exact List.mem_cons_of_mem _ (ih h)

theorem get?_eq_none {fields : Fields α} {key : String} (h : key ∉ fields.keys) :
    fields.get? key = none :=
  Option.eq_none_iff_forall_not_mem.mpr fun _ hx => h (mem_keys_of_mem (mem_of_get? hx))

theorem exists_of_mem_keys {fields : Fields α} {key : String} (h : key ∈ fields.keys) :
    ∃ x, (key, x) ∈ fields := by
  obtain ⟨entry, hentry, rfl⟩ := List.mem_map.mp h
  exact ⟨entry.2, hentry⟩

end Fields

namespace FieldMap

variable {α : Type}

/-- **Looking up finds the field that has the key**, since no other has it. -/
theorem get?_eq_some_iff (m : FieldMap α) {key : String} {x : α} :
    m.fields.get? key = some x ↔ (key, x) ∈ m.fields := by
  obtain ⟨fields, hfields⟩ := m
  refine ⟨Fields.mem_of_get?, fun h => ?_⟩
  induction fields with
  | nil => cases h
  | cons entry rest ih =>
    rw [Fields.Distinct, Fields.keys_cons, List.nodup_cons] at hfields
    rw [Fields.get?]
    rcases List.mem_cons.mp h with rfl | hrest
    · rw [if_pos rfl]
    · -- the key stands further back, so the first field has another one
      have hkey : entry.1 ≠ key := by
        rintro rfl
        exact hfields.1 (Fields.mem_keys_of_mem hrest)
      rw [if_neg hkey]
      exact ih hfields.2 hrest

/-- Under one key stands one value. -/
theorem eq_of_mem (m : FieldMap α) {key : String} {x y : α} (hx : (key, x) ∈ m.fields)
    (hy : (key, y) ∈ m.fields) : x = y := by
  rw [← m.get?_eq_some_iff] at hx hy
  rw [hx] at hy
  exact Option.some.inj hy

/-- A key is had if it is among the keys. -/
theorem hasKey_iff_mem_keys (m : FieldMap α) {key : String} :
    m.fields.hasKey key = true ↔ key ∈ m.fields.keys := by
  rw [Fields.hasKey, Option.isSome_iff_exists]
  simp only [m.get?_eq_some_iff]
  exact ⟨fun ⟨_, hx⟩ => Fields.mem_keys_of_mem hx, Fields.exists_of_mem_keys⟩

/-! ## Counting keys -/

/-- **Keys that are all found, and no room for others.** If on the right are all keys of the left but
not more fields, then the keys are the same on both sides. -/
theorem perm_keys (m : FieldMap α) {gs : Fields α} (hsubset : m.fields.keys ⊆ gs.keys)
    (hlength : gs.length ≤ m.fields.length) : m.fields.keys.Perm gs.keys := by
  refine (List.subperm_of_subset m.distinct hsubset).perm_of_length_le ?_
  rwa [Fields.keys, Fields.keys, List.length_map, List.length_map]

/-! ## Agreement -/

/-- Finite maps that have the same keys, and related values under each. -/
structure Agree (R : α → α → Prop) (fs gs : FieldMap α) : Prop where
  mem_keys_iff (key : String) : key ∈ fs.fields.keys ↔ key ∈ gs.fields.keys
  related {key : String} {x y : α} (hx : (key, x) ∈ fs.fields) (hy : (key, y) ∈ gs.fields) : R x y

section

variable {R : α → α → Prop} {fs gs : FieldMap α}

theorem Agree.flip (h : Agree R fs gs) : Agree (fun x y => R y x) gs fs :=
  ⟨fun key => (h.mem_keys_iff key).symm, fun hy hx => h.related hx hy⟩

/-- Finite maps that agree have equally many fields, since each has one for every key. -/
theorem Agree.length_eq (h : Agree R fs gs) : fs.fields.length = gs.fields.length := by
  have hperm : fs.fields.keys.Perm gs.fields.keys :=
    (List.perm_ext_iff_of_nodup fs.distinct gs.distinct).mpr h.mem_keys_iff
  simpa [Fields.keys] using hperm.length_eq

theorem Agree.isEmpty_eq (h : Agree R fs gs) : fs.fields.isEmpty = gs.fields.isEmpty := by
  rw [Bool.eq_iff_iff, List.isEmpty_iff_length_eq_zero, List.isEmpty_iff_length_eq_zero, h.length_eq]

/-- What stands under a key on one side has its counterpart on the other. -/
theorem Agree.exists_right (h : Agree R fs gs) {key : String} {x : α} (hx : (key, x) ∈ fs.fields) :
    ∃ y, (key, y) ∈ gs.fields ∧ R x y := by
  obtain ⟨y, hy⟩ := Fields.exists_of_mem_keys ((h.mem_keys_iff key).mp (Fields.mem_keys_of_mem hx))
  exact ⟨y, hy, h.related hx hy⟩

/-- Fields that stand side by side, with equal keys and related values. -/
theorem agree_of_forall₂ (h : List.Forall₂ (fun e e' => e.1 = e'.1 ∧ R e.2 e'.2) fs.fields gs.fields) :
    Agree R fs gs := by
  obtain ⟨fs, hfs⟩ := fs
  obtain ⟨gs, hgs⟩ := gs
  have hkeys : fs.keys = gs.keys := by
    rw [Fields.keys, Fields.keys, ← List.forall₂_eq_eq_eq, List.forall₂_map_left_iff,
      List.forall₂_map_right_iff]
    exact h.imp fun _ _ he => he.1
  refine ⟨fun key => by rw [hkeys], fun {key x y} hx hy => ?_⟩
  -- by induction over the two lists, so the fields in question stand in front together or not at all
  clear hkeys
  dsimp only at h hx hy
  induction h with
  | nil => cases hx
  | @cons e e' fs gs he _ ih =>
    rw [Fields.Distinct, Fields.keys_cons, List.nodup_cons] at hfs hgs
    rcases List.mem_cons.mp hx with rfl | hx' <;> rcases List.mem_cons.mp hy with rfl | hy'
    · exact he.2
    -- a key that stands in front on one side stands in front on the other
    · have hkey : key = e'.1 := he.1
      exact absurd (hkey ▸ Fields.mem_keys_of_mem hy') hgs.1
    · have hkey : e.1 = key := he.1
      exact absurd (hkey ▸ Fields.mem_keys_of_mem hx') hfs.1
    · exact ih hfs.2 hgs.2 hx' hy'

end

/-- The fields of lists that are related element by element. -/
theorem agree_ofList {R : α → α → Prop} {xs ys : List α} (h : List.Forall₂ R xs ys) :
    Agree R (ofList xs) (ofList ys) := by
  refine agree_of_forall₂ ?_
  -- the positions are counted from any number on
  have hfrom : ∀ n, List.Forall₂ (fun e e' => e.1 = e'.1 ∧ R e.2 e'.2)
      ((xs.zipIdx n).map fun p => (Nat.repr p.2, p.1))
      ((ys.zipIdx n).map fun p => (Nat.repr p.2, p.1)) := by
    induction h with
    | nil => exact fun _ => .nil
    | cons hxy _ ih => exact fun n => .cons ⟨rfl, hxy⟩ (ih (n + 1))
  exact hfrom 0

end FieldMap

/-! ## Inserting -/

namespace Fields

variable {α : Type}

/-- Inserting adds a key behind the others, or leaves the keys as they are. -/
theorem keys_insert (fields : Fields α) (key : String) (x : α) :
    (fields.insert key x).keys =
      if key ∈ fields.keys then fields.keys else fields.keys ++ [key] := by
  induction fields with
  | nil => rfl
  | cons entry rest ih =>
    obtain ⟨k, y⟩ := entry
    rw [insert, keys_cons]
    split
    · next hkey => simp [hkey, keys_cons]
    · next hkey =>
      rw [keys_cons, ih]
      by_cases hrest : key ∈ keys rest
      · simp [hrest]
      · simp [hrest, Ne.symm hkey]

/-- What inserting leaves is the new field and fields that were there. -/
theorem mem_insert {fields : Fields α} {key : String} {x : α} {e : String × α}
    (h : e ∈ fields.insert key x) : e = (key, x) ∨ e ∈ fields := by
  induction fields with
  | nil => exact .inl (List.mem_singleton.mp h)
  | cons entry rest ih =>
    obtain ⟨k, y⟩ := entry
    rw [insert] at h
    split at h
    · exact (List.mem_cons.mp h).imp id (List.mem_cons_of_mem _)
    · rcases List.mem_cons.mp h with rfl | hrest
      · exact .inr List.mem_cons_self
      · exact (ih hrest).imp id (List.mem_cons_of_mem _)

/-- What holds of no fields and is kept by inserting the pairs holds of the fields made of them. -/
theorem ofPairs_induction {motive : Fields α → Prop} (pairs : List (String × α)) (nil : motive [])
    (insert : ∀ fields, ∀ p ∈ pairs, motive fields → motive (fields.insert p.1 p.2)) :
    motive (ofPairs pairs) :=
  List.foldlRecOn pairs _ nil fun fields h p hp => insert fields p hp h

/-- Inserting pairs leaves nothing but pairs that were inserted. -/
theorem mem_of_mem_ofPairs {pairs : List (String × α)} {e : String × α} (he : e ∈ ofPairs pairs) :
    e ∈ pairs := by
  -- said of all fields at once, as the induction over the insertions needs it
  have hall : ∀ e ∈ ofPairs pairs, e ∈ pairs := by
    refine ofPairs_induction (motive := fun fields => ∀ e ∈ fields, e ∈ pairs) pairs
      (List.forall_mem_nil _) fun fields p hp ih e he => ?_
    rcases mem_insert he with rfl | hfields
    · exact hp
    · exact ih e hfields
  exact hall e he

/-- A new key goes behind the others. -/
theorem insert_of_not_mem {fields : Fields α} {key : String} (h : key ∉ fields.keys) (x : α) :
    fields.insert key x = fields ++ [(key, x)] := by
  induction fields with
  | nil => rfl
  | cons entry rest ih =>
    obtain ⟨k, y⟩ := entry
    rw [keys_cons, List.mem_cons, not_or] at h
    rw [insert, if_neg (Ne.symm h.1), ih h.2, List.cons_append]

end Fields

namespace FieldMap

variable {α : Type}

/-- Inserting a field does not repeat a key. -/
def insert (m : FieldMap α) (key : String) (x : α) : FieldMap α where
  fields := m.fields.insert key x
  distinct := by
    rw [Fields.Distinct, Fields.keys_insert]
    split
    · exact m.distinct
    · next hkey => exact List.nodup_append_comm.mpr (List.nodup_cons.mpr ⟨hkey, m.distinct⟩)

/-- **What inserting makes is a finite map**, whatever keys the pairs repeat. -/
def ofPairs (pairs : List (String × α)) : FieldMap α where
  fields := Fields.ofPairs pairs
  distinct := Fields.ofPairs_induction pairs empty.distinct fun fields p _ h =>
    (insert ⟨fields, h⟩ p.1 p.2).distinct

/-- **Inserting the fields of a finite map** gives these fields, in their order. -/
theorem ofPairs_fields (m : FieldMap α) : Fields.ofPairs m.fields = m.fields := by
  -- what was inserted stands in front, and no later key is among it
  have hfoldl : ∀ (done rest : Fields α), (done ++ rest).Distinct →
      rest.foldl (fun fields p => fields.insert p.1 p.2) done = done ++ rest := by
    intro done rest hdistinct
    induction rest generalizing done with
    | nil => exact (List.append_nil done).symm
    | cons entry rest ih =>
      have hnew : entry.1 ∉ done.keys := by
        rw [Fields.Distinct, Fields.keys, List.map_append, List.nodup_append] at hdistinct
        intro hmem
        exact hdistinct.2.2 _ hmem _ List.mem_cons_self rfl
      rw [List.append_cons] at hdistinct ⊢
      rw [List.foldl_cons, Fields.insert_of_not_mem hnew]
      exact ih _ hdistinct
  exact hfoldl [] m.fields m.distinct

end FieldMap

end RecordGuard
