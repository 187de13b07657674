import Mathlib.Data.Finset.Card
import Mathlib.Data.Option.Basic
import RecordGuard.Proofs.Value.Equality

/-!
# Objects under insertion

The fields of an object come from insertions one after the other. What they hold is told from the
history of these alone: the keys in the order in which they first came, and under each the value that
came last.

## The architecture

* **`Fields.get?_insert`**, **`Fields.getElem?_insert_of_ne`** — what an insertion does to the value
  under a key, and that it leaves the other fields where they are.
* **`FieldMap.Follows`** — a finite map that holds what a history leaves; **`FieldMap.Follows.insert`** is
  the step, **`FieldMap.Follows.insertAll`** the run.
* **`FieldMap.agree_iff_rel`** — agreement of finite maps by looking up.
* **`Fields.insertion_ordered_map`** — the headline.
-/

namespace RecordGuard

namespace Fields

variable {α : Type}

/-! ## One insertion -/

/-- What is handed out is what stood under the key, and what is left is the insertion. -/
theorem exchange_eq (fields : Fields α) (key : String) (x : α) :
    fields.exchange key x = (fields.get? key, fields.insert key x) := by
  induction fields with
  | nil => rfl
  | cons entry rest ih =>
    obtain ⟨k, y⟩ := entry
    rw [exchange, get?, insert, ih]
    split <;> rfl

/-- What is looked up after an insertion. -/
theorem get?_insert (fields : Fields α) (key : String) (x : α) (k : String) :
    (fields.insert key x).get? k = if key = k then some x else fields.get? k := by
  induction fields with
  | nil => rfl
  | cons entry rest ih =>
    obtain ⟨name, y⟩ := entry
    rw [insert]
    split
    · next hname =>
      subst hname
      rw [get?, get?]
      split <;> rfl
    · next hname =>
      rw [get?, get?, ih]
      by_cases hk : name = k
      · rw [if_pos hk, if_pos hk, if_neg fun hkey => hname (hk.trans hkey.symm)]
      · rw [if_neg hk, if_neg hk]

/-- **The other fields stay where they are**, with the values they had. -/
theorem getElem?_insert_of_ne {fields : Fields α} {key k : String} (hk : k ≠ key) (x y : α) (i : Nat) :
    (fields.insert key x)[i]? = some (k, y) ↔ fields[i]? = some (k, y) := by
  induction fields generalizing i with
  | nil =>
    cases i with
    | zero => simp [insert, Ne.symm hk]
    | succ i => simp [insert]
  | cons entry rest ih =>
    obtain ⟨name, z⟩ := entry
    rw [insert]
    split
    · next hname =>
      cases i with
      | zero => simp [hname, Ne.symm hk]
      | succ i => rfl
    · cases i with
      | zero => rfl
      | succ i => exact ih i

/-! ## Histories -/

/-- The keys of a history in the order in which they first came. -/
def firstKeys (history : List (String × α)) : List String := (history.map (·.1)).eraseDups

/-- The value that a history inserts last under a key. -/
def lastInserted? (history : List (String × α)) (key : String) : Option α :=
  (history.filter (·.1 = key)).getLast?.map (·.2)

/-- One more insertion adds its key behind the others, if it is new. -/
theorem firstKeys_concat (history : List (String × α)) (key : String) (x : α) :
    firstKeys (history ++ [(key, x)]) =
      if key ∈ firstKeys history then firstKeys history else firstKeys history ++ [key] := by
  unfold firstKeys
  rw [List.map_append, List.map_singleton, eraseDups_concat]
  simp only [List.mem_eraseDups]

/-- One more insertion is the last under its key. -/
theorem lastInserted?_concat (history : List (String × α)) (key : String) (x : α) (k : String) :
    lastInserted? (history ++ [(key, x)]) k =
      if key = k then some x else lastInserted? history k := by
  rw [lastInserted?, List.filter_append, List.filter_singleton]
  split
  · next hkey => simp [hkey]
  · next hkey => simp [hkey, lastInserted?]

/-- The pairs inserted one after the other into fields that are there. -/
def insertAll (fields : Fields α) (pairs : List (String × α)) : Fields α :=
  pairs.foldl (fun fields p => (fields.exchange p.1 p.2).2) fields

end Fields

namespace FieldMap

variable {α : Type}

/-- The pairs inserted one after the other into a finite map. -/
def insertAll (m : FieldMap α) (pairs : List (String × α)) : FieldMap α :=
  pairs.foldl (fun m p => m.insert p.1 p.2) m

/-- Inserting into a finite map inserts into its fields. -/
theorem fields_insertAll (m : FieldMap α) (pairs : List (String × α)) :
    (m.insertAll pairs).fields = m.fields.insertAll pairs := by
  induction pairs generalizing m with
  | nil => rfl
  | cons p rest ih =>
    rw [insertAll, List.foldl_cons, ← insertAll, ih, Fields.insertAll, Fields.insertAll,
      List.foldl_cons, Fields.exchange_eq]
    rfl

/-- A finite map holds what a history of insertions leaves: its keys in the order in which they first
came, and under each the value that came last. -/
structure Follows (history : List (String × α)) (m : FieldMap α) : Prop where
  keys_eq : m.fields.keys = Fields.firstKeys history
  get?_eq (key : String) : m.fields.get? key = Fields.lastInserted? history key

namespace Follows

variable {history : List (String × α)} {m : FieldMap α}

theorem empty : Follows [] (.empty : FieldMap α) := ⟨rfl, fun _ => rfl⟩

/-- **One more insertion.** -/
theorem insert (h : Follows history m) (key : String) (x : α) :
    Follows (history ++ [(key, x)]) (m.insert key x) := by
  refine ⟨?_, fun k => ?_⟩
  · rw [FieldMap.insert, Fields.keys_insert, Fields.firstKeys_concat, h.keys_eq]
  · rw [FieldMap.insert, Fields.get?_insert, Fields.lastInserted?_concat, h.get?_eq]

/-- **A run of insertions**, by induction on the pairs that are inserted. -/
theorem insertAll (h : Follows history m) (pairs : List (String × α)) :
    Follows (history ++ pairs) (m.insertAll pairs) := by
  induction pairs generalizing history m with
  | nil => rwa [List.append_nil]
  | cons p rest ih =>
    have hrest := ih (h.insert p.1 p.2)
    rwa [List.append_assoc] at hrest

theorem hasKey_iff (h : Follows history m) (key : String) :
    m.fields.hasKey key = true ↔ key ∈ history.map (·.1) := by
  rw [m.hasKey_iff_mem_keys, h.keys_eq, Fields.firstKeys, List.mem_eraseDups]

/-- There are as many fields as different keys. -/
theorem length_eq (h : Follows history m) :
    m.fields.length = (history.map (·.1)).toFinset.card := by
  -- a history and the map that follows it know the same keys
  have hsame : (history.map (·.1)).toFinset = m.fields.keys.toFinset := by
    ext key
    rw [List.mem_toFinset, List.mem_toFinset, h.keys_eq, Fields.firstKeys, List.mem_eraseDups]
  rw [hsame, List.toFinset_card_of_nodup m.distinct, Fields.keys, List.length_map]

end Follows

/-- Listing the fields lists the keys with what is looked up under each. -/
theorem entries_eq (m : FieldMap α) :
    m.fields.map (fun e => (e.1, some e.2)) =
      m.fields.keys.map fun key => (key, m.fields.get? key) := by
  rw [Fields.keys, List.map_map]
  refine List.map_congr_left fun e he => ?_
  rw [Function.comp_apply, m.get?_eq_some_iff.mpr he]

/-- The finite map that is left where pairs are collected and further ones inserted. -/
def built (start inserted : List (String × α)) : FieldMap α := (ofPairs start).insertAll inserted

theorem fields_built (start inserted : List (String × α)) :
    (built start inserted).fields = (Fields.ofPairs start).insertAll inserted :=
  fields_insertAll ..

/-- Collecting is inserting into nothing, so what is built follows the whole history. -/
theorem follows_built (start inserted : List (String × α)) :
    Follows (start ++ inserted) (built start inserted) := by
  -- collected pairs go in the same way as those that are inserted later
  have hcollected : FieldMap.ofPairs start = insertAll .empty start := by
    have hfields : (FieldMap.ofPairs start).fields = (insertAll .empty start).fields := by
      rw [fields_insertAll, ofPairs, empty]
      simp only [Fields.insertAll, Fields.ofPairs, Fields.exchange_eq]
    exact FieldMap.mk.injEq .. ▸ hfields
  rw [built, hcollected]
  exact (Follows.empty.insertAll start).insertAll inserted

end FieldMap

/-! ## Equality -/

/-- Finite maps agree just if looking up does, under every key. -/
theorem FieldMap.agree_iff_rel {α : Type} {R : α → α → Prop} {fs gs : FieldMap α} :
    fs.Agree R gs ↔ ∀ key, Option.Rel R (fs.fields.get? key) (gs.fields.get? key) := by
  constructor
  · intro h key
    cases hx : fs.fields.get? key with
    | some x =>
      obtain ⟨y, hy, hxy⟩ := h.exists_right (Fields.mem_of_get? hx)
      rw [gs.get?_eq_some_iff.mpr hy]
      exact .some hxy
    | none =>
      -- a field on the right would have its counterpart on the left
      cases hy : gs.fields.get? key with
      | none => exact .none
      | some y =>
        obtain ⟨x, hx', -⟩ := h.flip.exists_right (Fields.mem_of_get? hy)
        rw [fs.get?_eq_some_iff.mpr hx'] at hx
        cases hx
  · intro h
    have hsome : ∀ {a b : Option α}, Option.Rel R a b → a.isSome = b.isSome := by
      rintro _ _ (_ | _) <;> rfl
    have hmem : ∀ key, key ∈ fs.fields.keys ↔ key ∈ gs.fields.keys := by
      intro key
      rw [← fs.hasKey_iff_mem_keys, ← gs.hasKey_iff_mem_keys, Fields.hasKey, Fields.hasKey,
        hsome (h key)]
    refine ⟨hmem, fun {key x y} hx hy => ?_⟩
    have hrel := h key
    rw [fs.get?_eq_some_iff.mpr hx, gs.get?_eq_some_iff.mpr hy] at hrel
    exact Option.rel_some_some.mp hrel

namespace Fields

/-! ## The headline -/

/-- **An object is an insertion-ordered finite map.** Let pairs be collected into an object and further
ones be inserted into it. Then its keys are those that were inserted, each once and in the order in
which they first came; under a key stands what was inserted last; and the other readers agree with
this. One more insertion hands out what stood under its key, and leaves every other field where it is.
Two objects that came about so are equal just if looking up yields equal values under every key. -/
theorem insertion_ordered_map (start inserted : List (String × Value)) :
    let history := start ++ inserted
    let o := (ofPairs start).insertAll inserted
    (o.keys = firstKeys history ∧ o.keys.Nodup ∧
        (∀ key, o.get? key = lastInserted? history key) ∧
        (∀ key, o.hasKey key = (o.get? key).isSome ∧
          (o.hasKey key = true ↔ key ∈ history.map (·.1))) ∧
        o.length = (history.map (·.1)).toFinset.card ∧
        o.map (fun e => (e.1, some e.2)) = o.keys.map fun key => (key, o.get? key)) ∧
      (∀ key x, ∃ o', o.exchange key x = (o.get? key, o') ∧
        o' = (ofPairs start).insertAll (inserted ++ [(key, x)]) ∧
        ∀ (i : Nat) (k : String) (y : Value), k ≠ key →
          (o'[i]? = some (k, y) ↔ o[i]? = some (k, y))) ∧
      ∀ start' inserted' : List (String × Value),
        let o' := (ofPairs start').insertAll inserted'
        (Value.object o).equal (.object o') = true ↔
          ∀ key, Option.Rel (fun x y => x.equal y = true) (o.get? key) (o'.get? key) := by
  intro history o
  have hfollows := FieldMap.follows_built start inserted
  have ho : (FieldMap.built start inserted).fields = o := FieldMap.fields_built start inserted
  refine ⟨?readers, fun key x => ⟨o.insert key x, o.exchange_eq key x, ?next, ?others⟩, ?equal⟩
  case readers =>
    rw [← ho]
    exact ⟨hfollows.keys_eq, (FieldMap.built start inserted).distinct, hfollows.get?_eq,
      fun key => ⟨rfl, hfollows.hasKey_iff key⟩, hfollows.length_eq, FieldMap.entries_eq _⟩
  case next => rw [insertAll, List.foldl_append, List.foldl_cons, exchange_eq]; rfl
  case others => exact fun i k y hk => getElem?_insert_of_ne hk x y i
  case equal =>
    intro start' inserted' o'
    have ho' : (FieldMap.built start' inserted').fields = o' :=
      FieldMap.fields_built start' inserted'
    rw [← ho, ← ho', Value.equal_object_iff, FieldMap.agree_iff_rel]

/-- A key that was collected, was inserted again and stays in front when another one is. -/
theorem insertion_ordered_map_repeated :
    let o : Fields Value := (ofPairs [("a", .null), ("b", .bool true)]).insertAll [("a", .string "x")]
    ∃ o', o.exchange "b" .undefined = (some (.bool true), o') ∧ "a" ≠ "b" ∧
      o'[0]? = some ("a", .string "x") := by
  intro o
  obtain ⟨-, hexchange, -⟩ :=
    insertion_ordered_map [("a", .null), ("b", .bool true)] [("a", .string "x")]
  obtain ⟨o', ho', -, hothers⟩ := hexchange "b" .undefined
  have hne : "a" ≠ "b" := by decide
  exact ⟨o', ho', hne, (hothers 0 "a" (.string "x") hne).mpr rfl⟩

end Fields

end RecordGuard
