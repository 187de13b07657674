import RecordGuard.Proofs.Guard.Accepts

/-!
# Failing paths

A guard that rejects a value does so because of one part of it: the first element that is rejected,
the first validator of the whole that rejects, or the first own entry of which a value is rejected.
That part was rejected by a guard in turn, so there is a path from the outermost guard to an
innermost one. The diagnostics of rejections that a guard sends are those of this path, from the
inside out, and a guard that accepts sends none.

## The architecture

* **`Guard.failingPath`** — the diagnostics of the path, by recursion on the guard.
* **`Guard.depth`**, **`Guard.length_failingPath_le`** — arrays and records inside each other; a path
  is no longer than that.
* **`Program.Reports`** — a program comes to a verdict and sends these rejections; one rule for each
  construct.
* **`Guard.reports_check`** — the transport, by induction on the guard.
* **`captured_rejections`** — the headline.
-/

namespace RecordGuard

/-- The diagnostics of rejections among some diagnostics. -/
def rejections (ds : List Diagnostic) : List Diagnostic :=
  ds.filter fun d => d.kind = .validationFailed

theorem rejections_append (ds es : List Diagnostic) :
    rejections (ds ++ es) = rejections ds ++ rejections es :=
  List.filter_append ..

namespace Guard

/-! ## The path -/

mutual

/-- The diagnostics of the path on which a guard rejects a value, innermost first. -/
def failingPath (settings : Settings) : Guard → Value → List Diagnostic
  | kind _, _ | custom _ _, _ => []
  | named _ inner, v => inner.failingPath settings v
  | nullable base _, v => base.failingPath settings v
  | arrayOf element, v =>
    match (v.items?.getD []).find? fun x => !element.accepts x with
    | some x => element.failingPath settings x ++ [.memberFailed]
    | none => []
  | record registry, v => registryPath settings registry v

/-- The path through a record: through the first validator of the whole that rejects, or else
through the first own entry whose value is rejected. -/
def registryPath (settings : Settings) : Registry Guard → Value → List Diagnostic
  | ⟨schema, roots, properties, _⟩, v =>
    match v.entries? with
    | none => []
    | some entries =>
      (((firstPath settings roots v).map (· ++ [.failed settings schema .root v])).or
        (entries.findSome? fun e => (firstPathUnder settings e.1 properties e.2).map
          (· ++ [.failed settings schema (.property e.1) e.2]))).getD []

/-- The path through the first guard that rejects, if one does. -/
def firstPath (settings : Settings) : List Guard → Value → Option (List Diagnostic)
  | [], _ => none
  | g :: rest, v =>
    if g.accepts v then firstPath settings rest v else some (g.failingPath settings v)

/-- The path through the first guard under a key that rejects, if one does. -/
def firstPathUnder (settings : Settings) (key : String) :
    List (String × Guard) → Value → Option (List Diagnostic)
  | [], _ => none
  | (k, g) :: rest, v =>
    if k = key ∧ g.accepts v = false then some (g.failingPath settings v)
    else firstPathUnder settings key rest v

end

mutual

/-- How many arrays and records stand inside each other. -/
def depth : Guard → Nat
  | kind _ | custom _ _ => 0
  | named _ inner => inner.depth
  | nullable base _ => base.depth
  | arrayOf element => element.depth + 1
  | record registry => registryDepth registry + 1

def registryDepth : Registry Guard → Nat
  | ⟨_, roots, properties, _⟩ => max (depthOfAll roots) (depthOfProperties properties)

def depthOfAll : List Guard → Nat
  | [] => 0
  | g :: rest => max g.depth (depthOfAll rest)

def depthOfProperties : List (String × Guard) → Nat
  | [] => 0
  | (_, g) :: rest => max g.depth (depthOfProperties rest)

end

/-- Looking under a key is looking among the validators of the key. -/
theorem firstPathUnder_eq (settings : Settings) (key : String) (registry : Registry Guard)
    (v : Value) :
    firstPathUnder settings key registry.properties v =
      firstPath settings (registry.validators key) v := by
  obtain ⟨schema, roots, properties, suppression⟩ := registry
  induction properties with
  | nil => rfl
  | cons entry rest ih =>
    obtain ⟨k, g⟩ := entry
    simp only [Registry.validators] at ih ⊢
    rw [firstPathUnder, ih]
    -- an entry under another key is passed over on both sides
    by_cases hkey : k = key
    · rw [List.filter_cons_of_pos (by simpa using hkey), List.map_cons, firstPath]
      cases g.accepts v <;> simp [hkey]
    · rw [List.filter_cons_of_neg (by simpa using hkey), if_neg (by simp [hkey])]

/-- The path through the first own entry whose value is rejected, if one is. -/
def entriesPath (settings : Settings) (registry : Registry Guard) (entries : Fields Value) :
    Option (List Diagnostic) :=
  entries.findSome? fun e => (firstPath settings (registry.validators e.1) e.2).map
    (· ++ [.failed settings registry.schema (.property e.1) e.2])

/-- The path through a record, in terms of the validators under its keys. -/
theorem failingPath_record (settings : Settings) (registry : Registry Guard) (v : Value) :
    (record registry).failingPath settings v =
      match v.entries? with
      | none => []
      | some entries =>
        (((firstPath settings registry.roots v).map
          (· ++ [.failed settings registry.schema .root v])).or
            (entriesPath settings registry entries)).getD [] := by
  simp only [entriesPath, ← firstPathUnder_eq]
  obtain ⟨schema, roots, properties, suppression⟩ := registry
  rfl

/-! ## The length of a path -/

/-- A path through some guards is the path of one of them. -/
theorem exists_of_firstPath {settings : Settings} {gs : List Guard} {v : Value}
    {ds : List Diagnostic} (h : firstPath settings gs v = some ds) :
    ∃ g ∈ gs, g.failingPath settings v = ds := by
  induction gs with
  | nil => cases h
  | cons g rest ih =>
    rw [firstPath] at h
    split at h
    · obtain ⟨g', hg', hds⟩ := ih h
      exact ⟨g', List.mem_cons_of_mem g hg', hds⟩
    · exact ⟨g, List.mem_cons_self, Option.some.inj h⟩

/-- A guard is no deeper than the list that it stands in. -/
theorem depth_le_depthOfAll {gs : List Guard} {g : Guard} (hg : g ∈ gs) :
    g.depth ≤ depthOfAll gs := by
  induction gs with
  | nil => cases hg
  | cons g' rest ih =>
    rw [depthOfAll]
    rcases List.mem_cons.mp hg with rfl | hrest
    · exact Nat.le_max_left _ _
    · exact Nat.le_trans (ih hrest) (Nat.le_max_right _ _)

/-- Nor than the properties that it is registered among. -/
theorem depth_le_depthOfProperties {properties : List (String × Guard)} {e : String × Guard}
    (he : e ∈ properties) : e.2.depth ≤ depthOfProperties properties := by
  induction properties with
  | nil => cases he
  | cons e' rest ih =>
    rw [depthOfProperties]
    rcases List.mem_cons.mp he with rfl | hrest
    · exact Nat.le_max_left _ _
    · exact Nat.le_trans (ih hrest) (Nat.le_max_right _ _)

/-- **A validator is less deep than its record.** This is the step that a path takes in length. -/
theorem depth_lt_of_mem_roots {registry : Registry Guard} {g : Guard} (hg : g ∈ registry.roots) :
    g.depth < (record registry).depth := by
  obtain ⟨schema, roots, properties, suppression⟩ := registry
  have hle := depth_le_depthOfAll hg
  simp only [depth, registryDepth] at hle ⊢
  omega

/-- The same for a validator of a property. -/
theorem depth_lt_of_mem_properties {registry : Registry Guard} {e : String × Guard}
    (he : e ∈ registry.properties) : e.2.depth < (record registry).depth := by
  obtain ⟨schema, roots, properties, suppression⟩ := registry
  have hle := depth_le_depthOfProperties he
  simp only [depth, registryDepth] at hle ⊢
  omega

/-- **A path is no longer than its guard is deep.** -/
theorem length_failingPath_le (settings : Settings) (g : Guard) (v : Value) :
    (g.failingPath settings v).length ≤ g.depth := by
  induction g using Guard.induction generalizing v with
  | kind k => exact Nat.le_refl 0
  | custom label predicate => exact Nat.le_refl 0
  | named label inner ih => exact ih v
  | nullable base sentinels ih => exact ih v
  | arrayOf element ih =>
    rw [failingPath, depth]
    split
    · next x _ =>
      have hx := ih x
      simp only [List.length_append, List.length_singleton]
      omega
    · exact Nat.zero_le _
  -- through the whole or through an entry: one diagnostic more than the path of a validator, which is
  -- less deep
  | record registry ihRoots ihProperties =>
    rw [failingPath_record]
    cases v.entries? with
    | none => exact Nat.zero_le _
    | some entries =>
      dsimp only
      cases hroot : firstPath settings registry.roots v with
      | some ds =>
        obtain ⟨g, hg, rfl⟩ := exists_of_firstPath hroot
        have hlength := ihRoots g hg v
        have hdepth := depth_lt_of_mem_roots hg
        simp only [Option.map_some, Option.some_or, Option.getD_some, List.length_append,
          List.length_singleton]
        omega
      | none =>
        cases hfirst : entriesPath settings registry entries with
        | none => exact Nat.zero_le _
        | some ds =>
          obtain ⟨e, -, he⟩ := List.exists_of_findSome?_eq_some hfirst
          obtain ⟨path, hpath, rfl⟩ := Option.map_eq_some_iff.mp he
          obtain ⟨g, hg, rfl⟩ := exists_of_firstPath hpath
          have hmem := mem_properties_of_mem_validators hg
          have hlength : (g.failingPath settings e.2).length ≤ g.depth := ihProperties _ hmem e.2
          have hdepth : g.depth < (record registry).depth := depth_lt_of_mem_properties hmem
          simp only [Option.map_none, Option.none_or, Option.getD_some, List.length_append,
            List.length_singleton]
          omega

end Guard

/-! ## Programs that report rejections -/

/-- From every session with these settings the program comes to this verdict, the rejections that it
sends are these, and it leaves the settings what they are. -/
def Program.Reports (settings : Settings) (p : Program) (verdict : Bool) (ds : List Diagnostic) :
    Prop :=
  ∀ s, s.settings = settings → (p.run s).1 = some verdict ∧
    rejections (emitted (p.history s)) = ds ∧ (p.run s).2.settings = settings

namespace Program.Reports

variable {settings : Settings} {p q : Program} {verdict verdict' : Bool} {ds es : List Diagnostic}

theorem answer (verdict : Bool) : (Program.answer verdict).Reports settings verdict [] :=
  fun _ hs => ⟨rfl, rfl, hs⟩

/-- A diagnostic is sent first, which counts if it is one of a rejection. -/
theorem emit (d : Diagnostic) (hp : p.Reports settings verdict ds) :
    (Program.perform (.emit d) fun _ => p).Reports settings verdict (rejections [d] ++ ds) := by
  intro s hs
  obtain ⟨hrun, hds, hsettings⟩ := hp (s.emit d) ((Session.Alike.emit s d).settings.trans hs)
  refine ⟨hrun, ?_, hsettings⟩
  rw [← hds, ← rejections_append]
  rfl

/-- A rejection by a record is reported as just that. -/
theorem reject (schema : String) (target : Target) (v : Value) :
    (Registry.reject schema target v).Reports settings false
      [.failed settings schema target v] := by
  intro s hs
  -- the diagnostic is made with the settings in effect, which are the given ones
  have hanswer : (Program.answer false).Reports settings false [] := answer false
  obtain ⟨hrun, hds, hsettings⟩ := emit (.failed s.settings schema target v) hanswer s hs
  exact ⟨hrun, hs ▸ hds, hsettings⟩

/-- What a guard reports is what its body reports. -/
theorem ask (guard : String) (v : Value) (hp : p.Reports settings verdict ds) :
    (Program.ask guard v p .answer).Reports settings verdict ds := by
  intro s hs
  obtain ⟨hrun, hds, hsettings⟩ := hp s hs
  rw [run_ask, history_ask, hrun]
  refine ⟨rfl, ?_, hsettings⟩
  rw [emitted_append, rejections_append]
  exact (List.append_nil _).trans hds

/-- Programs in a row report the rejections of the first and then those of the second. -/
theorem bind {next : Bool → Program} (hp : p.Reports settings verdict ds)
    (hnext : (next verdict).Reports settings verdict' es) :
    (p.bind next).Reports settings verdict' (ds ++ es) := by
  intro s hs
  obtain ⟨hrun, hds, hsettings⟩ := hp s hs
  obtain ⟨hrun', hes, hsettings'⟩ := hnext (p.run s).2 hsettings
  rw [run_bind, history_bind, hrun]
  refine ⟨hrun', ?_, hsettings'⟩
  rw [emitted_append, rejections_append, hds, hes]

end Program.Reports

namespace Guard

variable {settings : Settings}

/-- The guard, put to a value, reports the path on which it rejects, or nothing. -/
def ReportsPath (settings : Settings) (g : Guard) (v : Value) : Prop :=
  (g.check v).Reports settings (g.accepts v)
    (if g.accepts v then [] else g.failingPath settings v)

/-- Guards that are asked in order report the path through the first that rejects. -/
theorem reports_all {gs : List Guard} {v : Value} (h : ∀ g ∈ gs, g.ReportsPath settings v) :
    (Predicate.all (gs.map check) v).Reports settings (firstPath settings gs v).isNone
      ((firstPath settings gs v).getD []) := by
  induction gs with
  | nil => exact .answer true
  | cons g rest ih =>
    rw [List.forall_mem_cons] at h
    have hfirst := h.1
    rw [ReportsPath] at hfirst
    rw [List.map_cons, Predicate.all, firstPath]
    -- an accepted guard reports nothing and the next is asked; the first that rejects ends the loop
    cases haccepts : g.accepts v with
    | true =>
      rw [haccepts] at hfirst
      exact hfirst.bind (ih h.2)
    | false =>
      rw [haccepts] at hfirst
      rw [← List.append_nil (Option.getD _ _)]
      exact hfirst.bind (.answer false)

/-- Values that are put to a guard in order: it reports its path for the first that it rejects. -/
theorem reports_onAll {g : Guard} (h : ∀ v, g.ReportsPath settings v) (values : List Value) :
    let first := values.find? fun x => !g.accepts x
    (Predicate.onAll g.check values).Reports settings first.isNone
      ((first.map (g.failingPath settings)).getD []) := by
  induction values with
  | nil => exact .answer true
  | cons v rest ih =>
    have hfirst := h v
    rw [ReportsPath] at hfirst
    rw [Predicate.onAll, List.find?_cons]
    cases haccepts : g.accepts v with
    | true =>
      rw [haccepts] at hfirst
      exact hfirst.bind ih
    | false =>
      rw [haccepts] at hfirst
      dsimp only [Bool.not_false]
      rw [← List.append_nil (Option.getD _ _)]
      exact hfirst.bind (.answer false)

/-- The loop over own entries reports the path through the first that is rejected. -/
theorem reports_entries {registry : Registry Guard}
    (h : ∀ e ∈ registry.properties, ∀ v, e.2.ReportsPath settings v) (last : Bool)
    (fields : Fields Value) :
    ((checkRegistry registry).entries last fields).Reports settings
      ((entriesPath settings registry fields).isNone && last)
      ((entriesPath settings registry fields).getD []) := by
  induction fields with
  | nil => exact .answer last
  | cons entry rest ih =>
    obtain ⟨key, v⟩ := entry
    have hvalidators : ∀ g ∈ registry.validators key, g.ReportsPath settings v :=
      fun g hg => h _ (mem_properties_of_mem_validators hg) v
    rw [entriesPath] at ih ⊢
    rw [List.findSome?_cons, Registry.entries, validators_checkRegistry, schema_checkRegistry]
    cases hregistered : registry.validators key with
    | nil =>
      -- a notice or none: neither is a rejection
      rw [List.map_nil]
      dsimp only
      split
      · exact ih
      · exact ih.emit (.missing registry.schema key)
    | cons g others =>
      rw [hregistered] at hvalidators
      have hall := reports_all hvalidators
      -- either all validators of the key accept, or one of them rejects and the record says so
      cases hpath : firstPath settings (g :: others) v with
      | none =>
        rw [hpath] at hall
        exact hall.bind ih
      | some ds =>
        rw [hpath] at hall
        exact hall.bind (.reject registry.schema (.property key) v)

/-- A guard without code reports its path if the predicate that it puts to the value does, together
with whatever verdict. -/
theorem reportsPath_of_body {g : Guard} (hcode : g.code = []) {v : Value} {label : String}
    {body : Program} (hcheck : g.check v = .ask label v body .answer)
    (h : ∃ verdict, body.Reports settings verdict
      (if verdict then [] else g.failingPath settings v)) : g.ReportsPath settings v := by
  obtain ⟨verdict, hbody⟩ := h
  have hreports : (g.check v).Reports settings verdict
      (if verdict then [] else g.failingPath settings v) := hcheck ▸ hbody.ask label v
  -- the verdict is the one that the guard comes to in every session
  have hrun : ((g.check v).run (Session.start settings)).1 = some verdict :=
    (hreports (Session.start settings) rfl).1
  rw [yields_accepts hcode v] at hrun
  obtain rfl : g.accepts v = verdict := Option.some.inj hrun
  exact hreports

/-- A guard of one kind reports no path: where it rejects there is nothing further inside. -/
theorem reports_kind (k : Kind) (v : Value) :
    (k.predicate v).Reports settings (k.accepts v) [] := by
  unfold Kind.predicate
  split
  · -- a text that names no date is reported, but no diagnostic is sent
    next s =>
    cases hinstant : Instant.ofText? s with
    | some i => simpa [Kind.accepts, Value.string?, hinstant] using Program.Reports.answer true
    | none =>
      have hrejects : Kind.dateString.accepts (.string s) = false := by
        simp [Kind.accepts, Value.string?, hinstant]
      rw [hrejects]
      exact fun _ hs => ⟨rfl, rfl, hs⟩
  · exact .answer _

/-- **An array** reports the path of the first element that is rejected, and then that one was. -/
theorem reportsPath_arrayOf {element : Guard} (hcode : (arrayOf element).code = [])
    (helement : ∀ x, element.ReportsPath settings x) (v : Value) :
    (arrayOf element).ReportsPath settings v := by
  refine reportsPath_of_body hcode rfl ?_
  unfold arrayTest
  rw [failingPath]
  -- what is no array is rejected without a word
  cases v.items? with
  | none => exact ⟨false, .answer false⟩
  | some items =>
    have hitems := reports_onAll helement items
    dsimp only [Option.getD_some] at hitems ⊢
    cases hfirst : items.find? fun x => !element.accepts x with
    | none =>
      rw [hfirst] at hitems
      exact ⟨true, hitems.bind (.answer true)⟩
    | some x =>
      rw [hfirst] at hitems
      exact ⟨false, hitems.bind (.emit .memberFailed (.answer false))⟩

/-- **A record** reports the path through the whole candidate, or else through its entries. -/
theorem reportsPath_record {registry : Registry Guard} (hcode : (record registry).code = [])
    (hroots : ∀ g ∈ registry.roots, ∀ v, g.ReportsPath settings v)
    (hproperties : ∀ e ∈ registry.properties, ∀ v, e.2.ReportsPath settings v) (v : Value) :
    (record registry).ReportsPath settings v := by
  refine reportsPath_of_body hcode rfl ?_
  have hall := reports_all fun g hg => hroots g hg v
  rw [Registry.evaluate, failingPath_record, schema_checkRegistry, roots_checkRegistry]
  cases v.entries? with
  | none => exact ⟨false, .answer false⟩
  | some fields =>
    dsimp only
    have hentries := reports_entries hproperties
      (!fields.isEmpty || (checkRegistry registry).acceptsEmpty) fields
    -- a rejection of the whole keeps the entries from being looked at
    cases hroot : firstPath settings registry.roots v with
    | some ds =>
      rw [hroot] at hall
      exact ⟨false, hall.bind (.reject registry.schema .root v)⟩
    | none =>
      rw [hroot] at hall
      cases hfirst : entriesPath settings registry fields with
      | some ds =>
        rw [hfirst] at hentries
        exact ⟨false, hall.bind hentries⟩
      | none =>
        -- without a rejected entry there is no path, also where a candidate without any is rejected
        rw [hfirst] at hentries
        refine ⟨!fields.isEmpty || (checkRegistry registry).acceptsEmpty, ?_⟩
        rw [Option.map_none, Option.none_or, Option.getD_none, ite_self]
        exact hall.bind hentries

/-- **A guard reports its path.** -/
theorem reports_check {g : Guard} (hcode : g.code = []) (v : Value) : g.ReportsPath settings v := by
  induction g using Guard.induction generalizing v with
  | kind k =>
    refine reportsPath_of_body hcode rfl ⟨k.accepts v, ?_⟩
    rw [failingPath, ite_self]
    exact reports_kind k v
  | custom label predicate => cases hcode
  | named label inner ih => exact reportsPath_of_body hcode rfl ⟨inner.accepts v, ih hcode v⟩
  | nullable base sentinels ih =>
    refine reportsPath_of_body hcode rfl ?_
    unfold nullableTest
    cases v.isAbsent sentinels with
    | true => exact ⟨true, .answer true⟩
    | false => exact ⟨base.accepts v, ih hcode v⟩
  | arrayOf element ih => exact reportsPath_arrayOf hcode (ih hcode) v
  | record registry ihRoots ihProperties =>
    obtain ⟨hroots, hproperties⟩ := code_record_eq_nil.mp hcode
    exact reportsPath_record hcode (fun g hg => ihRoots g hg (hroots g hg))
      (fun e he => ihProperties e he (hproperties e he)) v

end Guard

/-! ## The headline -/

/-- **The rejections that a check sends are those of one failing path.** Let nothing in a guard be the
caller's own, and let diagnostics be on. If the guard accepts a value, a capture around the check
collects no diagnostic of a rejection. If it rejects the value, those that are collected are the ones
of the failing path, in its order, so they are no more than there are arrays and records inside each
other. What accepts and rejects on the path is what does so in every session. -/
theorem captured_rejections {g : Guard} (hcode : g.code = []) (v : Value) {s : Session}
    (hon : s.settings.enabled = true) :
    ∃ ds, (Run.capture (g.verdict v) s).1 = some (g.accepts v, ds) ∧
      (g.accepts v = true → rejections ds = []) ∧
      (g.accepts v = false → rejections ds = g.failingPath s.settings v) ∧
      (rejections ds).length ≤ g.depth ∧
      ∀ t, (g.verdict v t).1 = some (g.accepts v) := by
  obtain ⟨hrun, hrejections, -⟩ := Guard.reports_check hcode v s rfl
  have hunchanged := g.unchanged_check (by simp [hcode]) (by simp [hcode]) v s
  refine ⟨emitted ((g.check v).history s), ?_, fun h => ?_, fun h => ?_, ?_,
    Guard.yields_accepts hcode v⟩
  · rw [Guard.verdict, (g.check v).traced.collects, hrun, sent_of_unchanged hunchanged, hon]
    rfl
  · rw [hrejections, if_pos h]
  · rw [hrejections, if_neg (by simp [h])]
  · rw [hrejections]
    split
    · exact Nat.zero_le _
    · exact g.length_failingPath_le s.settings v

/-- The second of three tags is rejected because of its number, and the property of the tags because
of that tag: three diagnostics, one inside the other. The tag in front of it, which gets a notice, and
the one behind it, which would be rejected too, add nothing. -/
theorem captured_rejections_nested :
    let tag : Guard := .record ⟨"Tag", [], [("id", .number)], Suppression.none⟩
    let g : Guard := .record ⟨"User", [.named "root" .object],
      [("name", .string), ("tags", .nullable (.arrayOf tag) [])], Suppression.none⟩
    let tags : Value := .array [.object [("note", .null)], .object [("id", .null)], .object []]
    let v : Value := .object [("name", .string "ana"), ("tags", tags), ("id", .null)]
    let s := Session.start .standard
    g.code = [] ∧ s.settings.enabled = true ∧ g.depth = 3 ∧
      ∃ ds, (Run.capture (g.verdict v) s).1 = some (false, ds) ∧
        ds = [.missing "Tag" "note", .failed .standard "Tag" (.property "id") .null, .memberFailed,
          .failed .standard "User" (.property "tags") tags] ∧
        rejections ds = g.failingPath .standard v := by
  intro tag g tags v s
  have hrejects : g.accepts v = false := by decide
  obtain ⟨ds, hcapture, -, hpath, -, -⟩ := captured_rejections (g := g) rfl v (s := s) rfl
  rw [hrejects] at hcapture
  have hds : some (false, [.missing "Tag" "note",
      .failed .standard "Tag" (.property "id") .null, .memberFailed,
      .failed .standard "User" (.property "tags") tags]) = some (false, ds) := hcapture
  refine ⟨rfl, rfl, by decide, ds, hcapture, ?_, hpath hrejects⟩
  exact (Prod.ext_iff.mp (Option.some.inj hds)).2.symm

end RecordGuard
