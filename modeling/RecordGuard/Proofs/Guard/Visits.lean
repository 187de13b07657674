import RecordGuard.Proofs.Guard.Containment
import RecordGuard.Proofs.Guard.Record
import RecordGuard.Proofs.Value.Fields

/-!
# The own entries that a check comes to

A record guard goes through the own entries of a candidate one by one, up to the first whose value is
rejected. It sees a candidate through these entries, and as a whole only by what validates the whole.
So without validators of the whole it cannot tell an array from the object that has the elements
under the decimal texts of their positions.

## The architecture

* **`Value.entries?_array_eq`** — an array and that object have the same own entries: no two positions
  share a text, so collecting the pairs replaces none and moves none.
* **`Program.andThen`**, **`Registry.judge`**, **`Registry.visit`** — a check as a conjunction: the
  whole is judged, and then each own entry is visited (`Registry.evaluate_eq`,
  `Registry.entries_cons`).
* **`Visit`**, **`Registry.visits`** — the entries that a check comes to, each with the session in
  which it does. They are the first own entries in their order (`Registry.visits_prefix`), and a check
  does nothing besides (`Registry.history_evaluate`).
* **`Registry.evaluate_congr`**, **`Guard.verdict_record_congr`** — candidates with the same own
  entries.
* **`own_keys_visited_once`** — the headline.
-/

namespace RecordGuard

/-! ## Own entries -/

/-- If the value is an object, it came about by inserting pairs one after the other. There is no other
way to come by an object. -/
def Value.IsInserted (v : Value) : Prop :=
  ∀ fields, v.fields? = some fields → ∃ pairs, fields = Fields.ofPairs pairs

/-- What came about by inserting repeats no key. -/
def Candidate.inserted {v : Value} (hv : v.IsInserted) : Candidate where
  value := v
  distinct := by
    intro fields hfields
    obtain ⟨pairs, rfl⟩ := hv fields hfields
    exact (FieldMap.ofPairs pairs).distinct

theorem Fields.ofList_eq_ofFn {α : Type} (items : List α) :
    Fields.ofList items = List.ofFn fun i : Fin items.length => (Nat.repr i, items[i]) := by
  refine List.ext_getElem (by simp [Fields.ofList]) fun i _ _ => ?_
  simp [Fields.ofList]

/-- **An array has the own entries of an object**: of the one collected from the decimal texts of its
positions and its elements, in order. -/
theorem Value.entries?_array_eq (items : List Value) :
    (array items).entries? =
      (object (Fields.ofPairs
        (.ofFn fun i : Fin items.length => (Nat.repr i, items[i])))).entries? := by
  have hcollected : Fields.ofPairs (Fields.ofList items) = Fields.ofList items :=
    (FieldMap.ofList items).ofPairs_fields
  rw [← Fields.ofList_eq_ofFn, hcollected]
  rfl

/-! ## A check as a conjunction -/

namespace Program

/-- Both programs in order, the second one only if the first accepts. -/
def andThen (p q : Program) : Program := p.bind fun verdict => if verdict then q else .answer false

/-- The steps of the first program, and if it accepts those of the second. -/
theorem history_andThen (p q : Program) (s : Session) :
    (p.andThen q).history s =
      p.history s ++ if (p.run s).1 = some true then q.history (p.run s).2 else [] := by
  rw [andThen, history_bind]
  -- the first program unwinds, rejects or accepts
  rcases (p.run s).1 with _ | _ | _ <;> rfl

end Program

namespace Registry

/-- Some validators are asked about a part of the candidate, and a rejection is diagnosed. -/
def judge (r : Registry Predicate) (validators : List Predicate) (target : Target) (v : Value) :
    Program :=
  (Predicate.all validators v).bind fun verdict =>
    if verdict then .answer true else reject r.schema target v

/-- What is done at an own entry: notice is given of a key that has no validators and may not be
passed over in silence; otherwise its validators judge the value. -/
def visit (r : Registry Predicate) (key : String) (v : Value) : Program :=
  if (r.validators key).isEmpty && !r.isSilent key then .emitThen (.missing r.schema key) true
  else r.judge (r.validators key) (.property key) v

/-- Judging and going on, in one: the acceptance that `judge` ends with is where the rest is put. -/
theorem judge_andThen (r : Registry Predicate) (validators : List Predicate) (target : Target)
    (v : Value) (p : Program) :
    (r.judge validators target v).andThen p =
      (Predicate.all validators v).bind fun verdict =>
        if verdict then p else reject r.schema target v := by
  rw [judge, Program.andThen, Program.bind_assoc]
  refine congrArg (Program.bind _) (funext fun verdict => ?_)
  cases verdict <;> rfl

/-- **The loop over own entries** visits the first and goes on if it is not rejected. -/
theorem entries_cons (r : Registry Predicate) (last : Bool) (key : String) (v : Value)
    (rest : Fields Value) :
    r.entries last ((key, v) :: rest) = (r.visit key v).andThen (r.entries last rest) := by
  rw [entries, visit]
  -- without validators the entry gets a notice or passes; otherwise they judge it
  cases hvalidators : r.validators key with
  | nil => cases r.isSilent key <;> rfl
  | cons p others => exact (r.judge_andThen (p :: others) (.property key) v _).symm

/-- **The check of a record** judges the whole and visits the own entries behind it. -/
theorem evaluate_eq (r : Registry Predicate) {v : Value} {fields : Fields Value}
    (h : v.entries? = some fields) :
    r.evaluate v = (r.judge r.roots .root v).andThen
      (r.entries (!fields.isEmpty || r.acceptsEmpty) fields) := by
  rw [evaluate, h, judge_andThen]

end Registry

/-! ## Visits -/

/-- An own entry that a check comes to, and the session in which it does. -/
structure Visit where
  key : String
  value : Value
  session : Session

namespace Visit

def entry (x : Visit) : String × Value := (x.key, x.value)

/-- The steps that are taken at an entry. -/
def steps (r : Registry Predicate) (x : Visit) : List Step := (r.visit x.key x.value).history x.session

end Visit

namespace Registry

/-- The visits of the loop over own entries, up to the first entry that is rejected. -/
def visitsFrom (r : Registry Predicate) : Fields Value → Session → List Visit
  | [], _ => []
  | (key, v) :: rest, s =>
    ⟨key, v, s⟩ ::
      let (verdict, t) := (r.visit key v).run s
      if verdict = some true then visitsFrom r rest t else []

/-- The steps of a check in front of its visits: the whole candidate is judged. -/
def opening (r : Registry Predicate) (v : Value) (s : Session) : List Step :=
  if v.isObjectLike then (r.judge r.roots .root v).history s else []

/-- The visits of a check: none where the whole candidate is rejected already. -/
def visits (r : Registry Predicate) (v : Value) (s : Session) : List Visit :=
  match v.entries? with
  | none => []
  | some fields =>
    let (verdict, t) := (r.judge r.roots .root v).run s
    if verdict = some true then r.visitsFrom fields t else []

variable (r : Registry Predicate)

/-- The loop over own entries does nothing besides its visits. -/
theorem history_entries (last : Bool) (fields : Fields Value) (s : Session) :
    (r.entries last fields).history s = (r.visitsFrom fields s).flatMap (Visit.steps r) := by
  -- induction on the entries; the loop and the visits stop at the same entry
  induction fields generalizing s with
  | nil => rfl
  | cons field rest ih =>
    obtain ⟨key, v⟩ := field
    rw [entries_cons, Program.history_andThen, visitsFrom, List.flatMap_cons, ih]
    dsimp only
    split <;> rfl

/-- **A check is its opening and its visits**, one after the other. -/
theorem history_evaluate (v : Value) (s : Session) :
    (r.evaluate v).history s = r.opening v s ++ (r.visits v s).flatMap (Visit.steps r) := by
  rw [opening, visits, v.isObjectLike_eq_isSome]
  -- what has no own entries is rejected without a step
  cases hentries : v.entries? with
  | none =>
    rw [evaluate, hentries]
    rfl
  | some fields =>
    rw [r.evaluate_eq hentries, Program.history_andThen, history_entries]
    dsimp only [Option.isSome_some, if_true]
    split <;> rfl

/-- The loop comes to the entries in their order, each time to the next. -/
theorem visitsFrom_prefix (fields : Fields Value) (s : Session) :
    (r.visitsFrom fields s).map Visit.entry <+: fields := by
  induction fields generalizing s with
  | nil => exact List.nil_prefix
  | cons field rest ih =>
    obtain ⟨key, v⟩ := field
    rw [visitsFrom, List.map_cons]
    refine (List.prefix_cons_inj _).mpr ?_
    dsimp only
    split
    · exact ih _
    · exact List.nil_prefix

/-- **A check comes to the first own entries**, in their order. -/
theorem visits_prefix (v : Value) (s : Session) :
    (r.visits v s).map Visit.entry <+: v.entries?.getD [] := by
  rw [visits]
  cases v.entries? with
  | none => exact List.nil_prefix
  | some fields =>
    dsimp only
    split
    · exact r.visitsFrom_prefix fields _
    · exact List.nil_prefix

/-- **No key is visited twice.** -/
theorem nodup_keys_visits (v : Candidate) (s : Session) :
    ((r.visits v.value s).map Visit.key).Nodup := by
  -- the keys visited are the first own keys, and these do not repeat
  have hprefix : (r.visits v.value s).map Visit.key <+: v.value.ownKeys := by
    have hentries := (r.visits_prefix v.value s).map Prod.fst
    rwa [List.map_map] at hentries
  exact v.nodup_ownKeys.sublist hprefix.sublist

/-! ## Candidates with the same own entries -/

variable {r} {v w : Value}

theorem evaluate_congr (hroots : r.roots = []) (h : v.entries? = w.entries?) :
    r.evaluate v = r.evaluate w := by
  rw [evaluate, evaluate, h, hroots]
  rfl

theorem visits_congr (hroots : r.roots = []) (h : v.entries? = w.entries?) (s : Session) :
    r.visits v s = r.visits w s := by
  rw [visits, visits, h, hroots]
  rfl

end Registry

namespace Guard

/-- The check of a record puts the record to the candidate and answers what that comes to. -/
theorem history_check_record (registry : Registry Guard) (v : Value) (s : Session) :
    ((record registry).check v).history s =
      .asked registry.schema v :: ((checkRegistry registry).evaluate v).history s ++
        [.answered registry.schema ((record registry).verdict v s).1] := by
  obtain ⟨verdict, hverdict⟩ := answers_evaluate registry v s
  rw [Guard.verdict, check, Program.history_ask, Program.run_ask, hverdict]
  rfl

/-- Asking about a candidate does not look at it: all that counts is the record's program. -/
theorem verdict_record_congr {registry : Registry Guard} {v w : Value}
    (h : (checkRegistry registry).evaluate v = (checkRegistry registry).evaluate w) :
    (record registry).verdict v = (record registry).verdict w := by
  funext s
  rw [Guard.verdict, Guard.verdict, check, check, Program.run_ask, Program.run_ask, h]

/-- A guard comes to a verdict, and a capture around its check to the same and what was collected. -/
theorem exists_capture_verdict (g : Guard) (v : Value) (s : Session) :
    ∃ verdict ds t, g.verdict v s = (some verdict, t) ∧
      Run.capture (g.verdict v) s = (some (verdict, ds), t) := by
  obtain ⟨verdict, hverdict⟩ := g.answers_check v s
  refine ⟨verdict, sent s.settings ((g.check v).history s), _, Prod.ext hverdict rfl, ?_⟩
  rw [Guard.verdict, (g.check v).traced.collects, hverdict]
  rfl

end Guard

/-! ## The headline -/

/-- **An array is checked as an object, and no own key is visited twice.** The own keys of a value do
not repeat. An array has, entry for entry, the own entries of the object that is collected from the
decimal texts of its positions and its elements. So a record guard without validators of the whole
comes to the same verdict on both, a capture collects the same diagnostics, the same session is left,
and what is asked and done in between is the same: the two checks differ in nothing but the candidate
that the guard itself was asked about.

The check of a record guard, with or without validators of the whole, consists of its opening and of
visits to own entries, the first ones in their order; no two of these visits are to the same key. -/
theorem own_keys_visited_once :
    (∀ v : Value, v.IsInserted → v.ownKeys.Nodup) ∧
    (∀ items : List Value,
      let o : Value :=
        .object (Fields.ofPairs (.ofFn fun i : Fin items.length => (Nat.repr i, items[i])))
      (Value.array items).entries? = o.entries? ∧
      ∀ registry : Registry Guard, registry.roots = [] → ∀ s,
        let g : Guard := .record registry
        ∃ verdict ds t h,
          g.verdict (.array items) s = (some verdict, t) ∧ g.verdict o s = (some verdict, t) ∧
          Run.capture (g.verdict (.array items)) s = (some (verdict, ds), t) ∧
          Run.capture (g.verdict o) s = (some (verdict, ds), t) ∧
          (g.check (.array items)).history s = .asked registry.schema (.array items) :: h ∧
          (g.check o).history s = .asked registry.schema o :: h ∧
          (Guard.checkRegistry registry).visits (.array items) s =
            (Guard.checkRegistry registry).visits o s) ∧
    ∀ (registry : Registry Guard) (v : Value), v.IsInserted → ∀ s,
      let r := Guard.checkRegistry registry
      ((r.visits v s).map Visit.key).Nodup ∧
      (r.visits v s).map Visit.entry <+: v.entries?.getD [] ∧
      ∃ verdict,
        ((Guard.record registry).verdict v s).1 = some verdict ∧
        ((Guard.record registry).check v).history s =
          .asked registry.schema v ::
              (r.opening v s ++ (r.visits v s).flatMap (Visit.steps r)) ++
            [.answered registry.schema (some verdict)] := by
  refine ⟨fun v hv => (Candidate.inserted hv).nodup_ownKeys, fun items => ?array,
    fun registry v hv s => ?visits⟩
  case array =>
    intro o
    -- the array is seen through its own entries, and these are the object's
    have hentries : (Value.array items).entries? = o.entries? := Value.entries?_array_eq items
    refine ⟨hentries, fun registry hroots s => ?_⟩
    intro g
    have hroots' : (Guard.checkRegistry registry).roots = [] := by
      rw [Guard.roots_checkRegistry, hroots, List.map_nil]
    have hevaluate := Registry.evaluate_congr hroots' hentries
    have hverdicts : g.verdict (.array items) = g.verdict o := Guard.verdict_record_congr hevaluate
    obtain ⟨verdict, ds, t, hverdict, hcapture⟩ := g.exists_capture_verdict o s
    refine ⟨verdict, ds, t, _, hverdicts ▸ hverdict, hverdict, hverdicts ▸ hcapture, hcapture,
      Guard.history_check_record registry (.array items) s, ?_,
      Registry.visits_congr hroots' hentries s⟩
    rw [hevaluate, hverdicts]
    exact Guard.history_check_record registry o s
  case visits =>
    intro r
    obtain ⟨verdict, hverdict⟩ := (Guard.record registry).answers_check v s
    refine ⟨r.nodup_keys_visits (.inserted hv) s, r.visits_prefix v s, verdict, hverdict, ?_⟩
    rw [Guard.history_check_record, Registry.history_evaluate, Guard.verdict, hverdict]

/-- A tuple of four, of which the second gets a notice and the third makes its validator unwind. It is
rejected there as the object of its positions is, and the fourth is not visited. -/
theorem own_keys_visited_once_unwound :
    let registry : Registry Guard :=
      ⟨"Tuple", [], [("0", .named "0" .string), ("2", .custom "2" fun _ => .panic)],
        Suppression.none⟩
    let g : Guard := .record registry
    let v : Value := .array [.string "a", .null, .bool true, .string "b"]
    let o : Value :=
      .object [("0", .string "a"), ("1", .null), ("2", .bool true), ("3", .string "b")]
    let ds : List Diagnostic :=
      [.missing "Tuple" "1", .failed .standard "Tuple" (.property "2") (.bool true)]
    let s := Session.start .standard
    let keys := ((Guard.checkRegistry registry).visits o s).map Visit.key
    o.IsInserted ∧ registry.roots = [] ∧ o.ownKeys.Nodup ∧ v.entries? = o.entries? ∧
      (Run.capture (g.verdict v) s).1 = some (false, ds) ∧
      (Run.capture (g.verdict o) s).1 = some (false, ds) ∧
      keys = ["0", "1", "2"] ∧ keys.Nodup := by
  intro registry g v o ds s keys
  have ho : o.IsInserted := by
    rintro fields ⟨⟩
    exact ⟨[("0", .string "a"), ("1", .null), ("2", .bool true), ("3", .string "b")], rfl⟩
  obtain ⟨hown, harray, hvisits⟩ := own_keys_visited_once
  obtain ⟨hentries, hchecks⟩ := harray [.string "a", .null, .bool true, .string "b"]
  obtain ⟨verdict, collected, t, h, -, -, hcapture, hcapture', -, -, -⟩ := hchecks registry rfl s
  have hcollected : some (false, ds) = some (verdict, collected) :=
    Eq.trans rfl (congrArg Prod.fst hcapture)
  rw [← hcollected] at hcapture hcapture'
  exact ⟨ho, rfl, hown o ho, hentries, congrArg Prod.fst hcapture, congrArg Prod.fst hcapture', rfl,
    (hvisits registry o ho s).1⟩

end RecordGuard
