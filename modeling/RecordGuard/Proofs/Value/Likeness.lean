import RecordGuard.Guard.Kind
import RecordGuard.Proofs.Value.Equality

/-!
# Values that look alike

A guard looks at a value one level at a time: at its kind, and through an array or an object at what
is directly inside. So two values look alike to every guard if they are related by a relation that
can be followed inside, level by level.

* **`Value.Resembles`**, **`Value.Likeness`** — one level, and a relation that holds at every level.
* **`Value.Likeness.equal_eq`** — no value tells apart, by being equal to them, two values that look
  alike; and so no kind does (`Value.Likeness.accepts_eq`).
* **`Value.likeness_equal`** — equal values look alike.
* **`Value.Reorders`**, **`Value.likeness_reorders`** — and so do values that differ in the order of
  keys, even where a NaN keeps them from being equal.
-/

namespace RecordGuard

namespace Value

/-! ## One level -/

/-- Two values look alike one level deep, and what is directly inside is related. Two numbers do if
the same numbers are equal to them. -/
inductive Resembles (R : Value → Value → Prop) : Value → Value → Prop where
  | undefined : Resembles R undefined undefined
  | null : Resembles R null null
  | bool (b : Bool) : Resembles R (bool b) (bool b)
  | number {m n : Number} (h : ∀ l : Number, l.equal m = l.equal n) :
      Resembles R (number m) (number n)
  | string (s : String) : Resembles R (string s) (string s)
  | date (i : Option Instant) : Resembles R (date i) (date i)
  | array {xs ys : List Value} (h : List.Forall₂ R xs ys) : Resembles R (array xs) (array ys)
  | object (fs gs : FieldMap Value) (h : fs.Agree R gs) :
      Resembles R (object fs.fields) (object gs.fields)

/-- A relation of values that look alike, at every level. -/
def Likeness (R : Value → Value → Prop) : Prop := ∀ ⦃v w⦄, R v w → Resembles R v w

section

variable {R : Value → Value → Prop} {v w : Value}

/-- Looking alike can be read from either side. -/
theorem Resembles.flip (h : Resembles R v w) : Resembles (fun v w => R w v) w v := by
  cases h with
  | undefined => exact .undefined
  | null => exact .null
  | bool b => exact .bool b
  | number h => exact .number fun l => (h l).symm
  | string s => exact .string s
  | date i => exact .date i
  | array h => exact .array h.flip
  | object fs gs h => exact .object gs fs h.flip

theorem Likeness.flip (hR : Likeness R) : Likeness fun v w => R w v := fun _ _ h => (hR h).flip

/-! ## What guards see of a value -/

/-- What equals one of two values that look alike equals the other. -/
theorem Likeness.equal_of_equal (hR : Likeness R) {m : Value} (hvw : R v w)
    (h : m.equal v = true) : m.equal w = true := by
  -- level by level: what equals a part on one side equals the part beside it on the other
  induction m using Value.induction generalizing v w with
  | undefined | null | bool | string | date =>
    cases equal_iff_matches.mp h
    cases hR hvw
    exact h
  | number l =>
    cases equal_iff_matches.mp h with
    | number hlm =>
      cases hR hvw with
      | number hmn => exact (hmn l).symm.trans hlm
  | array ms ih =>
    cases equal_iff_matches.mp h with
    | array hitems =>
      cases hR hvw with
      | array hxy =>
        refine equal_iff_matches.mpr (.array (forall₂_comp hitems hxy ?_))
        exact fun m hm x y hmx hxy => ih m hm hxy hmx
  | object ms ih =>
    cases equal_iff_matches.mp h with
    | object hlength hfound =>
      cases hR hvw with
      | object _ gs hagree =>
        refine equal_iff_matches.mpr (.object (hlength.trans hagree.length_eq) fun e he => ?_)
        obtain ⟨x, hx, hequal⟩ := hfound e he
        obtain ⟨y, hy, hxy⟩ := hagree.exists_right (Fields.mem_of_get? hx)
        exact ⟨y, gs.get?_eq_some_iff.mpr hy, ih e he hxy hequal⟩

/-- **No value is equal to one of them alone.** -/
theorem Likeness.equal_eq (hR : Likeness R) (hvw : R v w) (m : Value) : m.equal v = m.equal w :=
  Bool.eq_iff_iff.mpr ⟨hR.equal_of_equal hvw, hR.flip.equal_of_equal hvw⟩

/-- **No kind tells them apart**; an enumeration does not because no member of it does. -/
theorem Likeness.accepts_eq (hR : Likeness R) (hvw : R v w) (k : Kind) :
    k.accepts v = k.accepts w := by
  cases k with
  | memberOf members =>
    have hequal : (fun m : Value => m.equal v) = fun m => m.equal w := funext (hR.equal_eq hvw)
    rw [Kind.accepts, Kind.accepts, hequal]
  | _ => cases hR hvw <;> rfl

/-- Both are sentinels or neither is: sentinels are looked for as the members of an enumeration. -/
theorem Likeness.isAbsent_eq (hR : Likeness R) (hvw : R v w) (nominated : List Value) :
    v.isAbsent nominated = w.isAbsent nominated :=
  hR.accepts_eq hvw (.memberOf (effectiveSentinels nominated))

/-- Elements: none on either side, or elements that look alike side by side. -/
theorem Likeness.items (hR : Likeness R) (hvw : R v w) :
    (v.items? = none ∧ w.items? = none) ∨
      ∃ xs ys, v.items? = some xs ∧ w.items? = some ys ∧ List.Forall₂ R xs ys := by
  cases hR hvw with
  | array h => exact .inr ⟨_, _, rfl, rfl, h⟩
  | _ => exact .inl ⟨rfl, rfl⟩

/-- Own entries: none on either side, or the same keys with values that look alike. -/
theorem Likeness.entries (hR : Likeness R) (hvw : R v w) :
    (v.entries? = none ∧ w.entries? = none) ∨
      ∃ fs gs : FieldMap Value, v.entries? = some fs.fields ∧ w.entries? = some gs.fields ∧
        fs.Agree R gs := by
  cases hR hvw with
  | array h => exact .inr ⟨.ofList _, .ofList _, rfl, rfl, FieldMap.agree_ofList h⟩
  | object fs gs h => exact .inr ⟨fs, gs, rfl, rfl, h⟩
  | date => exact .inr ⟨.empty, .empty, rfl, rfl, FieldMap.agree_of_forall₂ .nil⟩
  | _ => exact .inl ⟨rfl, rfl⟩

end

/-! ## Equal values -/

/-- **Equal values look alike.** -/
theorem likeness_equal : Likeness fun v w => v.Proper ∧ v.equal w = true := by
  rintro v w ⟨hv, h⟩
  cases equal_iff_matches.mp h with
  | undefined => exact .undefined
  | null => exact .null
  | bool b => exact .bool b
  | string s => exact .string s
  | date i => exact .date i
  | number hmn =>
    refine .number fun l => Bool.eq_iff_iff.mpr ⟨fun hlm => ?_, fun hln => ?_⟩
    · exact Number.equal_trans hlm hmn
    · exact Number.equal_trans hln (Number.equal_symm hmn)
  | array hitems =>
    refine .array ((forall₂_and_mem hitems).imp fun x y hxy => ?_)
    exact ⟨proper_array.mp hv x hxy.1, hxy.2.2⟩
  | @object fs _ hlength hfound =>
    obtain ⟨hfs, hvalues⟩ := proper_object.mp hv
    let m : FieldMap Value := ⟨fs, hfs⟩
    obtain ⟨m', rfl, hagree⟩ := agree_of_found m hlength hfound
    exact .object m m'
      ⟨hagree.mem_keys_iff, fun hx hy => ⟨hvalues _ hx, hagree.related hx hy⟩⟩

/-! ## Values with their keys reordered -/

/-- The second value is the first with the fields of one object in it, at any depth, put in another
order. -/
inductive Reorders : Value → Value → Prop where
  | here {fs gs : Fields Value} (h : fs.Perm gs) : Reorders (object fs) (object gs)
  | item (before after : List Value) {x y : Value} (h : Reorders x y) :
      Reorders (array (before ++ x :: after)) (array (before ++ y :: after))
  | field (before after : Fields Value) (key : String) {x y : Value} (h : Reorders x y) :
      Reorders (object (before ++ (key, x) :: after)) (object (before ++ (key, y) :: after))

/-- Putting fields in another order repeats no key. -/
theorem Reorders.proper {v w : Value} (h : Reorders v w) (hv : v.Proper) : w.Proper := by
  induction h with
  | @here fs gs hperm =>
    obtain ⟨hfs, hvalues⟩ := proper_object.mp hv
    have hkeys : fs.keys.Perm gs.keys := hperm.map Prod.fst
    exact proper_object.mpr
      ⟨hkeys.nodup_iff.mp hfs, fun e he => hvalues e (hperm.mem_iff.mpr he)⟩
  | item before after _ ih =>
    rw [proper_array, List.forall_mem_append, List.forall_mem_cons] at hv ⊢
    exact ⟨hv.1, ih hv.2.1, hv.2.2⟩
  | field before after key _ ih =>
    rw [proper_object, List.forall_mem_append, List.forall_mem_cons] at hv ⊢
    obtain ⟨hkeys, hbefore, hx, hafter⟩ := hv
    refine ⟨?_, hbefore, ih hx, hafter⟩
    simpa [Fields.Distinct, Fields.keys] using hkeys

/-- A value looks like itself, if the relation holds of every proper value and itself. -/
theorem Resembles.refl {R : Value → Value → Prop} (v : ProperValue)
    (h : ∀ w : ProperValue, R w.value w.value) : Resembles R v.value v.value := by
  obtain ⟨v, hv⟩ := v
  cases v with
  | undefined => exact .undefined
  | null => exact .null
  | bool b => exact .bool b
  | number n => exact .number fun _ => rfl
  | string s => exact .string s
  | date i => exact .date i
  | array items =>
    exact .array (List.forall₂_same.mpr fun x hx => h ⟨x, proper_array.mp hv x hx⟩)
  | object fields =>
    obtain ⟨hfields, hvalues⟩ := proper_object.mp hv
    let m : FieldMap Value := ⟨fields, hfields⟩
    exact .object m m (FieldMap.agree_of_forall₂
      (List.forall₂_same.mpr fun e he => ⟨rfl, h ⟨e.2, hvalues e he⟩⟩))

/-- **Values that differ in the order of keys look alike**, whether there is a NaN in them or not. -/
theorem likeness_reorders : Likeness fun v w => v.Proper ∧ (v = w ∨ Reorders v w) := by
  rintro v w ⟨hv, rfl | h⟩
  · exact .refl ⟨v, hv⟩ fun w => ⟨w.proper, .inl rfl⟩
  · have hw : w.Proper := h.proper hv
    cases h with
    | @here fs gs hperm =>
      obtain ⟨hfs, hvalues⟩ := proper_object.mp hv
      let m : FieldMap Value := ⟨fs, hfs⟩
      have hkeys : fs.keys.Perm gs.keys := hperm.map Prod.fst
      refine .object m ⟨gs, (proper_object.mp hw).1⟩
        ⟨fun key => hkeys.mem_iff, fun {key x y} hx hy => ?_⟩
      -- both values stand under the same key on the left, where it is not repeated
      exact ⟨hvalues _ hx, .inl (m.eq_of_mem hx (hperm.mem_iff.mpr hy))⟩
    | item before after h =>
      rw [proper_array, List.forall_mem_append, List.forall_mem_cons] at hv
      obtain ⟨hbefore, hx, hafter⟩ := hv
      refine .array (List.rel_append ?_ (.cons ⟨hx, .inr h⟩ ?_))
      · exact List.forall₂_same.mpr fun x hx => ⟨hbefore x hx, .inl rfl⟩
      · exact List.forall₂_same.mpr fun x hx => ⟨hafter x hx, .inl rfl⟩
    | field before after key h =>
      rw [proper_object, List.forall_mem_append, List.forall_mem_cons] at hv
      obtain ⟨hkeys, hbefore, hx, hafter⟩ := hv
      refine .object ⟨_, hkeys⟩ ⟨_, (proper_object.mp hw).1⟩
        (FieldMap.agree_of_forall₂ (List.rel_append ?_ (.cons ⟨rfl, hx, .inr h⟩ ?_)))
      · exact List.forall₂_same.mpr fun e he => ⟨rfl, hbefore e he, .inl rfl⟩
      · exact List.forall₂_same.mpr fun e he => ⟨rfl, hafter e he, .inl rfl⟩

end Value

end RecordGuard
