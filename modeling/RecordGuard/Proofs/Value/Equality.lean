import RecordGuard.Proofs.Value.Parts
import RecordGuard.Value.Equality

/-!
# Equality of values is a partial equivalence

Equality looks for the fields of the left object in the right one and counts fields, and it compares
numbers numerically. It is symmetric and transitive all the same, and what keeps it from being
reflexive is a NaN.

## The architecture

* **`Number.equal_symm`, `Number.equal_trans`, `Number.equal_self`** — numbers.
* **`Value.Matches`**, **`Value.equal_iff_matches`** — the ways in which two values are equal, one for
  each kind.
* **`Value.equal_symm`** — symmetry. For objects it is a count: fields that do not repeat a key and
  are all found among equally many others leave none of these over.
* **`Value.equal_trans`**, **`Value.equal_self_iff`** — transitivity and reflexivity.
* **`Value.equal_laws`** — the headline.
-/

namespace RecordGuard

/-! ## Numbers -/

namespace Number

/-- Numbers are equal if neither is a NaN and they are the same, or both are zeros. -/
theorem equal_iff {m n : Number} :
    m.equal n = true ↔
      (m.isNaN = false ∧ n.isNaN = false) ∧ (m = n ∨ m.isZero = true ∧ n.isZero = true) := by
  obtain ⟨a⟩ := m
  obtain ⟨b⟩ := n
  simp [equal]

theorem equal_symm {m n : Number} (h : m.equal n = true) : n.equal m = true := by
  rw [equal_iff] at h ⊢
  exact ⟨h.1.symm, h.2.imp Eq.symm And.symm⟩

/-- Equality of numbers is transitive. -/
theorem equal_trans {l m n : Number} (h : l.equal m = true) (h' : m.equal n = true) :
    l.equal n = true := by
  rw [equal_iff] at h h' ⊢
  obtain ⟨⟨hl, -⟩, hlm⟩ := h
  obtain ⟨⟨-, hn⟩, hmn⟩ := h'
  refine ⟨⟨hl, hn⟩, ?_⟩
  -- equal numbers are the same or both zeros, and the signs of zeros do not count
  rcases hlm with rfl | ⟨hzero, hzero'⟩
  · exact hmn
  · rcases hmn with rfl | ⟨-, hzero''⟩
    · exact .inr ⟨hzero, hzero'⟩
    · exact .inr ⟨hzero, hzero''⟩

theorem equal_self {n : Number} : n.equal n = true ↔ n.isNaN = false := by
  simp [equal_iff]

end Number

namespace Value

/-! ## The ways of being equal

One inversion for all kinds: whatever two values are equal, they are so in one of these ways. -/

/-- The ways in which two values are equal. -/
inductive Matches : Value → Value → Prop where
  | undefined : Matches undefined undefined
  | null : Matches null null
  | bool (b : Bool) : Matches (bool b) (bool b)
  | number {m n : Number} (h : m.equal n = true) : Matches (number m) (number n)
  | string (s : String) : Matches (string s) (string s)
  | date (i : Option Instant) : Matches (date i) (date i)
  | array {xs ys : List Value} (h : List.Forall₂ (fun x y => x.equal y = true) xs ys) :
      Matches (array xs) (array ys)
  | object {fs gs : Fields Value} (hlength : fs.length = gs.length)
      (h : ∀ e ∈ fs, ∃ y, gs.get? e.1 = some y ∧ e.2.equal y = true) :
      Matches (object fs) (object gs)

/-- Elements are compared side by side. -/
theorem equalItems_iff {xs ys : List Value} :
    equalItems xs ys = true ↔ List.Forall₂ (fun x y => x.equal y = true) xs ys := by
  induction xs generalizing ys with
  | nil => cases ys <;> simp [equalItems]
  | cons x rest ih => cases ys <;> simp [equalItems, ih]

/-- Fields are found in others if each has an equal value under its key there. -/
theorem foundIn_iff {others : Fields Value} {fields : List (String × Value)} :
    foundIn others fields = true ↔
      ∀ e ∈ fields, ∃ y, others.get? e.1 = some y ∧ e.2.equal y = true := by
  induction fields with
  | nil => simp [foundIn]
  | cons e rest ih =>
    obtain ⟨key, x⟩ := e
    rw [foundIn, Bool.and_eq_true, ih, List.forall_mem_cons]
    refine and_congr_left fun _ => ?_
    cases others.get? key <;> simp

/-- **Equality, kind by kind.** -/
theorem equal_iff_matches {v w : Value} : v.equal w = true ↔ Matches v w := by
  constructor
  · intro h
    cases v with
    | undefined => cases w <;> first | exact .undefined | simp [equal] at h
    | null => cases w <;> first | exact .null | simp [equal] at h
    | bool b =>
      cases w <;> simp only [equal, beq_iff_eq, Bool.false_eq_true] at h
      exact h ▸ .bool b
    | number m =>
      cases w <;> simp only [equal, Bool.false_eq_true] at h
      exact .number h
    | string s =>
      cases w <;> simp only [equal, beq_iff_eq, Bool.false_eq_true] at h
      exact h ▸ .string s
    | date i =>
      cases w <;> simp only [equal, beq_iff_eq, Bool.false_eq_true] at h
      exact h ▸ .date i
    | array xs =>
      cases w <;> simp only [equal, equalItems_iff, Bool.false_eq_true] at h
      exact .array h
    | object fs =>
      cases w <;>
        simp only [equal, Bool.and_eq_true, beq_iff_eq, foundIn_iff, Bool.false_eq_true] at h
      exact .object h.1 h.2
  · rintro (_ | _ | b | h | s | i | h | ⟨hlength, h⟩)
    · rfl
    · rfl
    · simp [equal]
    · exact h
    · simp [equal]
    · simp [equal]
    · exact equalItems_iff.mpr h
    · rw [equal, Bool.and_eq_true, beq_iff_eq]
      exact ⟨hlength, foundIn_iff.mpr h⟩

/-! ## Objects

Fields that are found one by one: since there are equally many on both sides, the keys are the same,
and so neither side repeats one. -/

/-- A finite map whose fields are all found in equally many others: the keys are the same. -/
theorem perm_keys_of_found {fs : FieldMap Value} {gs : Fields Value}
    (hlength : fs.fields.length = gs.length)
    (h : ∀ e ∈ fs.fields, ∃ y, gs.get? e.1 = some y ∧ e.2.equal y = true) :
    fs.fields.keys.Perm gs.keys := by
  have hsubset : fs.fields.keys ⊆ gs.keys := by
    intro key hkey
    obtain ⟨x, hx⟩ := Fields.exists_of_mem_keys hkey
    obtain ⟨y, hy, -⟩ := h (key, x) hx
    exact Fields.mem_keys_of_mem (Fields.mem_of_get? hy)
  -- the count leaves no other key on the right
  exact fs.perm_keys hsubset (Nat.le_of_eq hlength.symm)

/-- **Being found is agreement**, and what a finite map is found in is one itself. -/
theorem agree_of_found (fs : FieldMap Value) {gs : Fields Value}
    (hlength : fs.fields.length = gs.length)
    (h : ∀ e ∈ fs.fields, ∃ y, gs.get? e.1 = some y ∧ e.2.equal y = true) :
    ∃ m : FieldMap Value, m.fields = gs ∧ fs.Agree (fun x y => x.equal y = true) m := by
  have hperm := perm_keys_of_found hlength h
  let m : FieldMap Value := ⟨gs, hperm.nodup_iff.mp fs.distinct⟩
  refine ⟨m, rfl, fun key => hperm.mem_iff, fun {key x y} hx hy => ?_⟩
  obtain ⟨z, hz, hequal⟩ := h (key, x) hx
  rwa [m.eq_of_mem hy (Fields.mem_of_get? hz)]

/-- The other way round: what agrees is found. -/
theorem found_of_agree {fs gs : FieldMap Value} (h : fs.Agree (fun x y => x.equal y = true) gs) :
    ∀ e ∈ fs.fields, ∃ y, gs.fields.get? e.1 = some y ∧ e.2.equal y = true := by
  intro e he
  obtain ⟨y, hy, hequal⟩ := h.exists_right he
  exact ⟨y, gs.get?_eq_some_iff.mpr hy, hequal⟩

/-- **Equal objects**: the same keys, and equal values under each. -/
theorem equal_object_iff {fs gs : FieldMap Value} :
    (object fs.fields).equal (object gs.fields) = true ↔
      fs.Agree (fun x y => x.equal y = true) gs := by
  rw [equal_iff_matches]
  constructor
  · intro h
    cases h with
    | object hlength hfound =>
      obtain ⟨m, hm, hagree⟩ := agree_of_found fs hlength hfound
      obtain ⟨fields, distinct⟩ := m
      cases hm
      exact hagree
  · intro h
    exact .object h.length_eq (found_of_agree h)

/-! ## Symmetry, transitivity, reflexivity -/

/-- **Equality is symmetric.** Only the left value need be proper: the right one is found in it, key by
key, and then so is it in the right one. -/
theorem equal_symm (v : ProperValue) {w : Value} (h : v.value.equal w = true) :
    w.equal v.value = true := by
  induction v using Throughout.induction generalizing w with
  | undefined | null | bool | string | date =>
    cases equal_iff_matches.mp h
    exact h
  | number m =>
    cases equal_iff_matches.mp h with
    | number hmn => exact Number.equal_symm hmn
  | array xs _ ih =>
    cases equal_iff_matches.mp h with
    | @array _ ys hitems =>
      have hflip : List.Forall₂ (fun y x => y.equal x = true) ys xs :=
        ((forall₂_and_mem hitems).imp fun x y hxy => ih x hxy.1 hxy.2.2).flip
      exact equal_iff_matches.mpr (.array hflip)
  | object fs hfs ih =>
    cases equal_iff_matches.mp h with
    | @object _ gs hlength hfound =>
      let m : FieldMap Value := ⟨fs, (proper_object.mp hfs).1⟩
      -- agreement says the same of both sides, which finding the left in the right does not
      obtain ⟨m', rfl, hagree⟩ := agree_of_found m hlength hfound
      have hflip : m'.Agree (fun y x => y.equal x = true) m :=
        ⟨fun key => (hagree.mem_keys_iff key).symm,
          fun hy hx => ih _ hx (hagree.related hx hy)⟩
      exact equal_object_iff.mpr hflip

/-- **Equality is transitive**, of all values there are. -/
theorem equal_trans {u v w : Value} (h : u.equal v = true) (h' : v.equal w = true) :
    u.equal w = true := by
  induction u using Value.induction generalizing v w with
  | undefined | null | bool | string | date =>
    cases equal_iff_matches.mp h
    exact h'
  | number l =>
    cases equal_iff_matches.mp h with
    | number hlm =>
      cases equal_iff_matches.mp h' with
      | number hmn => exact Number.equal_trans hlm hmn
  | array xs ih =>
    cases equal_iff_matches.mp h with
    | array hxy =>
      cases equal_iff_matches.mp h' with
      | array hyz =>
        refine equal_iff_matches.mpr (.array (forall₂_comp hxy hyz ?_))
        exact fun x hx y z => ih x hx
  | object fs ih =>
    cases equal_iff_matches.mp h with
    | object hlength hfound =>
      cases equal_iff_matches.mp h' with
      | object hlength' hfound' =>
        refine equal_iff_matches.mpr (.object (hlength.trans hlength') fun e he => ?_)
        -- what is found under a key in the middle is looked for again, under the same key
        obtain ⟨y, hy, hequal⟩ := hfound e he
        obtain ⟨z, hz, hequal'⟩ := hfound' (e.1, y) (Fields.mem_of_get? hy)
        exact ⟨z, hz, ih e he hequal hequal'⟩

/-- **A value equals itself** unless there is a NaN in it. -/
theorem equal_self_iff (v : ProperValue) : v.value.equal v.value = true ↔ v.value.NaNFree := by
  induction v using Throughout.induction with
  | undefined | null | bool | string | date =>
    simp [equal, NaNFree, Everywhere, parts, number?]
  | number n =>
    rw [nanFree_number, ← Number.equal_self]
    rfl
  | array xs _ ih =>
    rw [nanFree_array, equal, equalItems_iff, List.forall₂_same]
    exact forall₂_congr ih
  | object fs hfs ih =>
    let m : FieldMap Value := ⟨fs, (proper_object.mp hfs).1⟩
    rw [nanFree_object, equal, beq_self_eq_true, Bool.true_and, foundIn_iff]
    refine forall₂_congr fun e he => ?_
    -- the only field under its key is the one that is found
    have hfound : Fields.get? fs e.1 = some e.2 := m.get?_eq_some_iff.mpr he
    rw [← ih e he, hfound]
    simp

/-- Equal objects, by looking up. -/
theorem equal_object_iff_get? (fs gs : FieldMap Value) :
    (object fs.fields).equal (object gs.fields) = true ↔
      (∀ key, key ∈ fs.fields.keys ↔ key ∈ gs.fields.keys) ∧
        ∀ key x y, fs.fields.get? key = some x → gs.fields.get? key = some y →
          x.equal y = true := by
  rw [equal_object_iff]
  constructor
  · intro h
    exact ⟨h.mem_keys_iff, fun key x y hx hy =>
      h.related (Fields.mem_of_get? hx) (Fields.mem_of_get? hy)⟩
  · rintro ⟨hkeys, hvalues⟩
    exact ⟨hkeys, fun hx hy =>
      hvalues _ _ _ (fs.get?_eq_some_iff.mpr hx) (gs.get?_eq_some_iff.mpr hy)⟩

theorem kindName_eq_of_equal {v w : Value} (h : v.equal w = true) : v.kindName = w.kindName := by
  cases equal_iff_matches.mp h <;> rfl

/-- The date without an instant equals itself and nothing else. -/
theorem equal_invalidDate {v : Value} : (date none).equal v = true ↔ v = date none := by
  constructor
  · intro h
    cases equal_iff_matches.mp h
    rfl
  · rintro rfl
    rfl

/-! ## The headline -/

/-- **Equality is a partial equivalence, and it is blind to the order of keys.** On values of any depth
in which no object repeats a key it is symmetric, it is transitive, and a value equals itself exactly
if no NaN is anywhere in it. Objects are equal exactly if they have the same keys and equal values
under each, in whatever order; arrays, if their elements are equal in order. Values of different kinds
are never equal, and nothing but itself equals the date without an instant. -/
theorem equal_laws :
    (∀ v w : ProperValue, v.value.equal w.value = w.value.equal v.value) ∧
    (∀ u v w : Value, u.equal v = true → v.equal w = true → u.equal w = true) ∧
    (∀ v : ProperValue, v.value.equal v.value = true ↔ v.value.NaNFree) ∧
    (∀ fs gs : FieldMap Value, (object fs.fields).equal (object gs.fields) = true ↔
      (∀ key, key ∈ fs.fields.keys ↔ key ∈ gs.fields.keys) ∧
        ∀ key x y, fs.fields.get? key = some x → gs.fields.get? key = some y → x.equal y = true) ∧
    (∀ xs ys : List Value, (array xs).equal (array ys) = true ↔
      List.Forall₂ (fun x y => x.equal y = true) xs ys) ∧
    (∀ v w : Value, v.kindName ≠ w.kindName → v.equal w = false) ∧
    (∀ v : Value, (date none).equal v = true ↔ v = date none) := by
  refine ⟨fun v w => ?_, fun _ _ _ h h' => equal_trans h h', equal_self_iff,
    equal_object_iff_get?, fun xs ys => equalItems_iff, fun v w hkind => ?_,
    fun v => equal_invalidDate⟩
  · exact Bool.eq_iff_iff.mpr ⟨equal_symm v, equal_symm w⟩
  · exact Bool.eq_false_iff.mpr fun h => hkind (kindName_eq_of_equal h)

/-- Two objects with their keys in different orders and zeros of different signs, and a value with a
NaN two levels down. -/
theorem equal_laws_reordered :
    let fs : FieldMap Value := ⟨[("x", number (.zero false)), ("y", array [bool true])], by decide⟩
    let gs : FieldMap Value := ⟨[("y", array [bool true]), ("x", number (.zero true))], by decide⟩
    let v : ProperValue := ⟨object fs.fields, by decide⟩
    let w : ProperValue := ⟨object gs.fields, by decide⟩
    let n : ProperValue := ⟨array [object [("k", number .nan)]], by decide⟩
    v.value.equal w.value = true ∧ w.value.equal v.value = true ∧
      (∀ key, key ∈ fs.fields.keys ↔ key ∈ gs.fields.keys) ∧ v.value.equal v.value = true ∧
      ¬n.value.NaNFree ∧ n.value.equal n.value = false ∧ v.value.equal n.value = false := by
  intro fs gs v w n
  obtain ⟨hsymm, htrans, hself, hobject, -, hkind, -⟩ := equal_laws
  have hnan : ¬n.value.NaNFree := by decide
  have hequal : v.value.equal w.value = true := by decide
  have hequal' : w.value.equal v.value = true := hsymm v w ▸ hequal
  have hkeys := ((hobject fs gs).mp hequal).1
  exact ⟨hequal, hequal', hkeys, htrans _ _ _ hequal hequal', hnan,
    Bool.eq_false_iff.mpr (mt (hself n).mp hnan), hkind _ _ (by decide)⟩

end Value

end RecordGuard
