import RecordGuard.Document.Format
import RecordGuard.Proofs.Json.Numeral
import RecordGuard.Proofs.Value.Fields

/-!
# Trees that are read

A mapping in a text may repeat a key, but one in a tree that is read from a text never does: in both
formats the values of a mapping are inserted one after the other. And whatever number a text writes,
what is read is an integer of 64 bits or a finite number.

* **`Json.Proper`** — no mapping anywhere inside repeats a key.
* **`Json.WellFormed`** — besides, every number inside fits.
* **`Json.State.wellFormed_step`**, **`Json.wellFormed_of_ofText?`** — in JSON every token keeps what
  is under construction well-formed.
* **`Yaml.Node.ensures_toJson`** — in YAML, by induction on the depth.
* **`Format.wellFormed_of_read?`**, **`Format.proper_of_read?`** — the headlines.
-/

namespace RecordGuard

/-! ## Proper trees -/

/-- No mapping inside repeats a key, at any depth. -/
inductive Json.Proper : Json → Prop where
  | null : Proper .null
  | bool (b : Bool) : Proper (.bool b)
  | number (n : JsonNumber) : Proper (.number n)
  | string (s : String) : Proper (.string s)
  | array {items : List Json} (hitems : ∀ x ∈ items, Proper x) : Proper (.array items)
  | object {fields : Fields Json} (hkeys : fields.Distinct) (hfields : ∀ e ∈ fields, Proper e.2) :
      Proper (.object fields)

/-- Fields that make a proper mapping. -/
structure Json.ProperFields (fields : Fields Json) : Prop where
  keys : fields.Distinct
  values : ∀ e ∈ fields, e.2.Proper

/-- The trees of documents: no mapping inside repeats a key, and every number inside fits. -/
inductive Json.WellFormed : Json → Prop where
  | null : WellFormed .null
  | bool (b : Bool) : WellFormed (.bool b)
  | number {n : JsonNumber} (hn : n.Fits) : WellFormed (.number n)
  | string (s : String) : WellFormed (.string s)
  | array {items : List Json} (hitems : ∀ x ∈ items, WellFormed x) : WellFormed (.array items)
  | object {fields : Fields Json} (hkeys : fields.Distinct)
      (hfields : ∀ e ∈ fields, WellFormed e.2) : WellFormed (.object fields)

/-- A well-formed tree is proper: the numbers are forgotten. -/
theorem Json.WellFormed.proper {j : Json} (h : j.WellFormed) : j.Proper := by
  induction h with
  | null => exact .null
  | bool b => exact .bool b
  | number => exact .number _
  | string s => exact .string s
  | array _ ih => exact .array ih
  | object hkeys _ ih => exact .object hkeys ih

/-! ## JSON

What is under construction is the value that was read last and the containers that stand open. -/

namespace Json

/-- Fields that make a well-formed mapping. -/
structure WellFormedFields (fields : Fields Json) : Prop where
  keys : fields.Distinct
  values : ∀ e ∈ fields, e.2.WellFormed

theorem wellFormedFields_nil : WellFormedFields [] := ⟨List.nodup_nil, List.forall_mem_nil _⟩

/-- **Inserting a well-formed field keeps fields well-formed**, whether the key is there or not. -/
theorem WellFormedFields.insert {fields : Fields Json} (h : WellFormedFields fields) (key : String)
    {v : Json} (hv : v.WellFormed) : WellFormedFields (fields.insert key v) := by
  refine ⟨(FieldMap.insert ⟨fields, h.keys⟩ key v).distinct, fun e he => ?_⟩
  rcases Fields.mem_insert he with rfl | he
  · exact hv
  · exact h.values e he

namespace Token

/-- What a token brings with it is well-formed. -/
def WellFormed : Token → Prop
  | atom v => v.WellFormed
  | _ => True

/-- Atoms are names and numbers. -/
theorem wellFormed_of_next? {cs rest : List Char} {t : Token} (h : next? cs = some (t, rest)) :
    t.WellFormed := by
  have hnumber : ∀ {negative : Bool} {cs : List Char},
      (Numeral.read? negative cs).map (fun p => (atom (.number p.1), p.2)) = some (t, rest) →
        t.WellFormed := by
    intro negative cs hr
    obtain ⟨p, hread, hp⟩ := Option.map_eq_some_iff.mp hr
    cases hp
    exact .number (Numeral.fits_of_read? hread)
  -- brackets, braces, comma and colon bring nothing; a text, the three names and the two sorts of
  -- numerals do
  unfold next? at h
  split at h
  case h_7 =>
    obtain ⟨p, -, hp⟩ := Option.map_eq_some_iff.mp h
    cases hp
    trivial
  case h_8 => cases h; exact .null
  case h_9 => cases h; exact .bool true
  case h_10 => cases h; exact .bool false
  case h_11 => exact hnumber h
  case h_12 => exact hnumber h
  all_goals cases h; trivial

/-- So are the tokens of a whole text. -/
theorem wellFormed_of_scanWith (fuel : Nat) {cs : List Char} {ts : List Token}
    (h : scanWith fuel cs = some ts) : ∀ t ∈ ts, t.WellFormed := by
  fun_induction scanWith fuel cs generalizing ts with
  | case1 =>
    cases h
    exact List.forall_mem_nil _
  | case2 => cases h
  | case3 _ _ _ ih =>
    obtain ⟨⟨t, rest⟩, hnext, h⟩ := Option.bind_eq_some_iff.mp h
    obtain ⟨others, hothers, h⟩ := Option.bind_eq_some_iff.mp h
    cases h
    exact List.forall_mem_cons.mpr ⟨wellFormed_of_next? hnext, ih rest hothers⟩

end Token

def Frame.WellFormed : Frame → Prop
  | .items done => ∀ x ∈ done, x.WellFormed
  | .fields done _ => WellFormedFields done

def Expected.WellFormed : Expected → Prop
  | .key done | .colon done _ => WellFormedFields done
  | .behind v => v.WellFormed
  | _ => True

namespace State

/-- What is under construction is well-formed. -/
structure WellFormed (s : State) : Prop where
  expected : s.expected.WellFormed
  stack : ∀ f ∈ s.stack, f.WellFormed

/-- Going into a container keeps what is under construction well-formed. -/
theorem wellFormed_enter {e : Expected} {frame : Option Frame} {stack : List Frame} {s : State}
    (h : enter e frame stack = some s) (he : e.WellFormed) (hframe : ∀ f ∈ frame, f.WellFormed)
    (hstack : ∀ f ∈ stack, f.WellFormed) : s.WellFormed := by
  unfold enter at h
  split at h
  · cases h
  · cases h
    refine ⟨he, ?_⟩
    -- where nothing was open around it, the stack is what it was
    cases frame with
    | none => exact hstack
    | some f => exact List.forall_mem_cons.mpr ⟨hframe f rfl, hstack⟩

/-- Behind a value, the value, the container around it and those further out are well-formed. -/
theorem WellFormed.of_behind {s : State} (hs : s.WellFormed) {v : Json} {f : Frame}
    {stack : List Frame} (hv : s.expected = .behind v) (hf : s.stack = f :: stack) :
    v.WellFormed ∧ f.WellFormed ∧ ∀ f ∈ stack, f.WellFormed := by
  have hexpected := hs.expected
  have hstack := hs.stack
  rw [hv] at hexpected
  rw [hf, List.forall_mem_cons] at hstack
  exact ⟨hexpected, hstack⟩

/-- **Every token keeps what is under construction well-formed.** -/
theorem wellFormed_step {s s' : State} {t : Token} (hs : s.WellFormed) (ht : t.WellFormed)
    (h : s.step t = some s') : s'.WellFormed := by
  unfold step at h
  split at h
  -- containers that start here
  case h_2 | h_3 =>
    have hframe : ∀ f ∈ some (Frame.items []), f.WellFormed := by
      rintro f ⟨⟩
      exact List.forall_mem_nil _
    exact wellFormed_enter h trivial hframe hs.stack
  case h_4 | h_5 => exact wellFormed_enter h trivial (fun _ hf => nomatch hf) hs.stack
  all_goals cases h
  -- values and keys that are complete
  case h_1 hframes =>
    have hstack := hs.stack
    rw [hframes, List.forall_mem_cons] at hstack
    exact ⟨.array (List.forall_mem_nil _), hstack.2⟩
  case h_6 | h_7 => exact ⟨.string _, hs.stack⟩
  case h_8 | h_9 => exact ⟨ht, hs.stack⟩
  case h_10 => exact ⟨.object List.nodup_nil (List.forall_mem_nil _), hs.stack⟩
  case h_11 => exact ⟨wellFormedFields_nil, hs.stack⟩
  case h_12 hkey =>
    have hexpected := hs.expected
    rw [hkey] at hexpected
    exact ⟨hexpected, hs.stack⟩
  case h_13 hcolon =>
    have hexpected := hs.expected
    rw [hcolon] at hexpected
    exact ⟨trivial, List.forall_mem_cons.mpr ⟨hexpected, hs.stack⟩⟩
  -- a value and the container around it
  case h_14 hexpected hframes =>
    obtain ⟨hv, hdone, hstack⟩ := hs.of_behind hexpected hframes
    have hitems : Frame.WellFormed (.items _) := List.forall_mem_cons.mpr ⟨hv, hdone⟩
    exact ⟨trivial, List.forall_mem_cons.mpr ⟨hitems, hstack⟩⟩
  case h_15 hexpected hframes =>
    obtain ⟨hv, hdone, hstack⟩ := hs.of_behind hexpected hframes
    have hitems := List.forall_mem_cons.mpr ⟨hv, hdone⟩
    exact ⟨.array fun x hx => hitems x (List.mem_reverse.mp hx), hstack⟩
  case h_16 hexpected hframes =>
    obtain ⟨hv, hdone, hstack⟩ := hs.of_behind hexpected hframes
    exact ⟨WellFormedFields.insert hdone _ hv, hstack⟩
  case h_17 hexpected hframes =>
    obtain ⟨hv, hdone, hstack⟩ := hs.of_behind hexpected hframes
    obtain ⟨hkeys, hvalues⟩ := WellFormedFields.insert hdone _ hv
    exact ⟨.object hkeys hvalues, hstack⟩

/-- So do all tokens of a text, one after the other. -/
theorem wellFormed_steps {ts : List Token} (hts : ∀ t ∈ ts, t.WellFormed) {s s' : State}
    (hs : s.WellFormed) (h : s.steps ts = some s') : s'.WellFormed := by
  induction ts generalizing s with
  | nil =>
    cases h
    exact hs
  | cons t rest ih =>
    obtain ⟨s₁, hstep, hrest⟩ := Option.bind_eq_some_iff.mp h
    rw [List.forall_mem_cons] at hts
    exact ih hts.2 (wellFormed_step hs hts.1 hstep) hrest

end State

/-- **A tree that is read from JSON is well-formed.** -/
theorem wellFormed_of_ofText? {cs : List Char} {j : Json} (h : ofText? cs = some j) :
    j.WellFormed := by
  obtain ⟨ts, hscan, h⟩ := Option.bind_eq_some_iff.mp h
  obtain ⟨s, hsteps, h⟩ := Option.bind_eq_some_iff.mp h
  have hstart : State.WellFormed ⟨.value, []⟩ := ⟨trivial, List.forall_mem_nil _⟩
  have hs : s.WellFormed :=
    State.wellFormed_steps (Token.wellFormed_of_scanWith _ hscan) hstart hsteps
  split at h
  · cases h
    exact hs.expected
  · cases h

end Json

/-! ## YAML -/

namespace Yaml

namespace Scalar

/-- A number that is not finite is read as null. -/
theorem wellFormed_ofNumber (n : Number) : (ofNumber n).WellFormed := by
  unfold ofNumber
  split
  · next hfinite => exact .number hfinite
  · exact .null

/-- What is read as an integer is one of 64 bits. -/
theorem fits_of_readInteger {cs : List Char} {z : Int} (h : readInteger cs = .integer z) :
    (JsonNumber.integer z).Fits := by
  unfold readInteger at h
  split at h
  · cases h
  split at h
  · next hfits =>
    cases h
    simp only [fits, UInt64.size, Bool.and_eq_true, decide_eq_true_eq] at hfits
    simp only [JsonNumber.Fits]
    omega
  · split at h <;> cases h

/-- A plain scalar is null, a truth value, a number or a text. -/
theorem wellFormed_of_plain? {cs : List Char} {j : Json} (h : plain? cs = some j) :
    j.WellFormed := by
  unfold plain? at h
  split at h
  · cases h
    exact .null
  split at h
  · cases h
    exact .bool _
  split at h
  · -- an integer that is too large is none, and is tried as a number of the other sort
    next hinteger =>
    cases h
    exact .number (fits_of_readInteger hinteger)
  · cases h
  split at h
  · cases h
    exact wellFormed_ofNumber _
  · cases h
    exact .string _

/-- Without a tag a scalar in quotes is a text. -/
theorem wellFormed_of_untagged? {cs : List Char} {plain : Bool} {j : Json}
    (h : untagged? cs plain = some j) : j.WellFormed := by
  unfold untagged? at h
  split at h
  · exact wellFormed_of_plain? h
  · cases h
    exact .string _

/-- A tag of the core schema says what the text is to be read as. -/
theorem wellFormed_of_tagged? {tag : String} {cs : List Char} {j : Json}
    (h : tagged? tag cs = some j) : j.WellFormed := by
  unfold tagged? at h
  split at h
  · obtain ⟨b, -, rfl⟩ := Option.map_eq_some_iff.mp h
    exact .bool b
  · split at h
    · next hinteger =>
      cases h
      exact .number (fits_of_readInteger hinteger)
    · cases h
  · obtain ⟨n, -, rfl⟩ := Option.map_eq_some_iff.mp h
    exact wellFormed_ofNumber n
  · split at h <;> cases h
    exact .null
  · cases h
    exact .string _

/-- Every scalar is well-formed. -/
theorem wellFormed_of_json? {tag : Option TagText} {cs : List Char} {plain : Bool} {j : Json}
    (h : json? tag cs plain = some j) : j.WellFormed := by
  unfold json? at h
  split at h
  · exact wellFormed_of_untagged? h
  split at h
  · cases h
  · exact wellFormed_of_untagged? h
  · exact wellFormed_of_tagged? h
  · cases h
    exact .string _

end Scalar

namespace Node

/-- `P` holds of whatever is read, if anything is. -/
def Reading.Ensures {α : Type} (r : Reading α) (P : α → Prop) : Prop :=
  ∀ left, ∀ p ∈ r left, P p.1

namespace Reading

variable {α β : Type} {P : α → Prop} {Q : β → Prop}

theorem ensures_pure {a : α} (h : P a) : Ensures (pure a) P := by
  rintro left p ⟨⟩
  exact h

theorem ensures_failure : Ensures failure P := by
  rintro left p ⟨⟩

/-- One reading after the other. -/
theorem Ensures.bind {r : Reading α} {f : α → Reading β} (hr : r.Ensures P)
    (hf : ∀ a, P a → (f a).Ensures Q) : (r >>= f).Ensures Q := by
  intro left p hp
  obtain ⟨⟨a, left'⟩, ha, hp⟩ := Option.bind_eq_some_iff.mp hp
  exact hf a (hr left _ ha) left' p hp

/-- Nothing is known of what is read. -/
theorem ensures_true (r : Reading α) : r.Ensures fun _ => True := fun _ _ _ => trivial

/-- Readings one after the other. -/
theorem ensures_mapM (xs : List α) {f : α → Reading β} (h : ∀ x ∈ xs, (f x).Ensures Q) :
    (xs.mapM f).Ensures fun ys => ∀ y ∈ ys, Q y := by
  induction xs with
  | nil => exact ensures_pure (List.forall_mem_nil _)
  | cons x xs ih =>
    rw [List.forall_mem_cons] at h
    rw [List.mapM_cons]
    exact h.1.bind fun y hy => (ih h.2).bind fun ys hys =>
      ensures_pure (List.forall_mem_cons.mpr ⟨hy, hys⟩)

end Reading

/-- A scalar is well-formed in the course of a reading too. -/
theorem ensures_scalar (tag : Option TagText) (text : List Char) (plain : Bool) :
    Reading.Ensures (liftM (Scalar.json? tag text plain)) Json.WellFormed := by
  intro left p hp
  obtain ⟨j, hj, hp⟩ := Option.bind_eq_some_iff.mp hp
  cases hp
  exact Scalar.wellFormed_of_json? hj

/-- The tree of a node is well-formed if those inside it are: its fields come from inserting
them. -/
theorem ensures_tree (anchors : List (Nat × Node)) {inner : Option (Node → Reading Json)}
    (hinner : ∀ read ∈ inner, ∀ n, (read n).Ensures Json.WellFormed) (n : Node) :
    (tree anchors inner n).Ensures Json.WellFormed := by
  -- a tag that is refused ends the reading, and another one says nothing about the tree
  have hcheck : ∀ {tag : Option TagText} {r : Reading Json}, r.Ensures Json.WellFormed →
      Reading.Ensures (if refusesTag tag then do failure; r else r) Json.WellFormed := by
    intro tag r hr
    split
    · exact (Reading.ensures_true _).bind fun _ _ => hr
    · exact hr
  unfold tree
  split
  next tag text plain => exact ensures_scalar tag text plain
  next tag items read =>
    have hitems := Reading.ensures_mapM items fun x _ => hinner read rfl x
    exact hcheck (hitems.bind fun ys hys => Reading.ensures_pure (.array hys))
  next tag entries read =>
    -- a key is a text whatever is known of it; what stands under it comes from inside
    have hentry : ∀ e : Node × Node, Reading.Ensures
        (do return (← keyText anchors e.1, ← read e.2)) fun p => p.2.WellFormed := fun e =>
      (Reading.ensures_true _).bind fun key _ => (hinner read rfl e.2).bind fun v hv =>
        Reading.ensures_pure hv
    have hentries := Reading.ensures_mapM entries fun e _ => hentry e
    refine hcheck (hentries.bind fun ps hps => Reading.ensures_pure ?_)
    exact .object (FieldMap.ofPairs ps).distinct fun e he => hps e (Fields.mem_of_mem_ofPairs he)
  next => exact Reading.ensures_failure

/-- **The tree of a node is well-formed.** -/
theorem ensures_toJson (anchors : List (Nat × Node)) (depth : Nat) (n : Node) :
    (toJson anchors depth n).Ensures Json.WellFormed := by
  induction depth generalizing n with
  | zero =>
    exact (Reading.ensures_true _).bind fun m _ => ensures_tree anchors (by simp) m
  | succ depth ih =>
    refine (Reading.ensures_true _).bind fun m _ => ensures_tree anchors ?_ m
    rintro read ⟨⟩
    exact ih

end Node

/-- **A tree that is read from YAML is well-formed.** -/
theorem wellFormed_of_ofText? {cs : List Char} {j : Json} (h : ofText? cs = some j) :
    j.WellFormed := by
  obtain ⟨ts, -, h⟩ := Option.bind_eq_some_iff.mp h
  obtain ⟨n, -, h⟩ := Option.bind_eq_some_iff.mp h
  obtain ⟨p, hp, rfl⟩ := Option.map_eq_some_iff.mp h
  exact Node.ensures_toJson _ _ n _ p hp

end Yaml

/-- **A tree that is read is well-formed**, whatever the format. -/
theorem Format.wellFormed_of_read? {format : Format} {content : String} {j : Json}
    (h : format.read? content = some j) : j.WellFormed := by
  cases format with
  | json => exact Json.wellFormed_of_ofText? h
  | yaml => exact Yaml.wellFormed_of_ofText? h

/-- **No mapping in it repeats a key.** -/
theorem Format.proper_of_read? {format : Format} {content : String} {j : Json}
    (h : format.read? content = some j) : j.Proper :=
  (wellFormed_of_read? h).proper

end RecordGuard
