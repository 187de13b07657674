import RecordGuard.Proofs.CommandLine.Lines
import RecordGuard.Proofs.Guard.Withheld

/-!
# Checks that withhold values

A check that is told to withhold values puts out nothing that depends on a payload but through the
outcomes of the guards. Two documents with the same own keys, of which the guards of the schema file
say the same, cannot be told apart from the lines, the log and the exit code of such a check.

* **`SchemaFile.Indistinct`** — candidates of which the guards of a file say the same.
* **`SchemaFile.guard_mirrors`** — the same shows of their checks.
* **`checkDocuments_mirrors`**, **`runCheck_mirrors`**, **`runInvocation_mirrors`** — the transport
  to whole runs, by induction on the documents.
* **`execute_check_redacted`** — the headline.
-/

namespace RecordGuard

namespace SchemaFile

variable {f : SchemaFile} {v w : Value} {settings : Settings}

/-! ## Candidates that cannot be told apart -/

/-- Candidates with the same own keys in the same order, of which the guards of a file say the same:
that of the root of the candidates, those of a property of the values under its key. -/
structure Indistinct (f : SchemaFile) (v w : Value) : Prop where
  root : ∀ rule, f.rootRule? = .ok (some rule) → rule.guard.outcome v = rule.guard.outcome w
  entries : Value.Keywise (fun key x y => ∀ rules, f.propertyRules = .ok rules →
    ∀ rule, (key, rule) ∈ rules → rule.guard.outcome x = rule.guard.outcome y) v w

theorem Indistinct.refl (f : SchemaFile) (v : Value) : f.Indistinct v v :=
  ⟨fun _ _ => rfl, .refl (fun _ _ _ _ _ _ => rfl) v⟩

/-- The validators of a file show the same of them. -/
theorem Indistinct.mirrorImages (h : f.Indistinct v w) {root : Option Rule}
    {rules : List (String × Rule)} (hroot : f.rootRule? = .ok root)
    (hrules : f.propertyRules = .ok rules) (settings : Settings) :
    MirrorImages settings (f.steps root rules) v w := by
  -- what a rule resolves to has no records inside, so its outcome is all that shows
  constructor
  · rw [roots_of_steps, List.forall_mem_map]
    intro rule hrule
    have hplain := forall_mem_of_forall₂ (resolve_of_rootRule hroot) fun spec _ hresolve =>
      spec.plain_of_resolve hresolve
    rw [Option.mem_toList.mp hrule] at hroot
    exact (hplain rule hrule).mirrors (h.root rule hroot) settings
  · refine h.entries.imp fun key x y houtcomes => ?_
    rw [validators_of_steps, List.forall_mem_map]
    rintro ⟨_, rule⟩ hrule
    obtain ⟨hmem, hkey⟩ := List.mem_filter.mp hrule
    obtain rfl := of_decide_eq_true hkey
    have hplain := forall_mem_of_forall₂ (resolve_of_propertyRules hrules) fun p _ hresolve =>
      p.2.plain_of_resolve hresolve.2
    exact (hplain _ hmem).mirrors (houtcomes rules hrules rule hmem) settings

/-- **The guard of a file shows the same of them**, where values are withheld. -/
theorem guard_mirrors {b : Builder} (hb : f.builder = .ok b) (hredact : settings.redact = true)
    (h : f.Indistinct v w) : (b.guard.check v).Mirrors settings (b.guard.check w) := by
  obtain ⟨root, rules, hroot, hrules, hguard⟩ := rules_of_builder hb
  rw [hguard]
  exact recordGuard_mirrors hredact f.name (h.mirrorImages hroot hrules settings)

end SchemaFile

/-! ## Runs -/

/-- What the readers have at a path is the same, or documents that a file cannot tell apart. -/
inductive SchemaFile.LoadsAlike (f : SchemaFile) (r r' : Reader) (path : String) : Prop where
  | same (h : loadDocument r path = loadDocument r' path)
  | indistinct {v w : Value} (hv : loadDocument r path = .ok v)
      (hw : loadDocument r' path = .ok w) (h : f.Indistinct v w)

section

variable {f : SchemaFile} {b : Builder} {r r' : Reader} {settings : Settings}

/-- The check of a document shows the same, or fails alike. -/
theorem checkDocument_mirrors (hb : f.builder = .ok b) (hredact : settings.redact = true)
    {path : String} (h : f.LoadsAlike r r' path) :
    Run.Mirrors settings settings (checkDocument r b.guard path)
      (checkDocument r' b.guard path) := by
  have hindistinct : ∀ {v w : Value}, loadDocument r path = .ok v → loadDocument r' path = .ok w →
      f.Indistinct v w → Run.Mirrors settings settings (checkDocument r b.guard path)
        (checkDocument r' b.guard path) := by
    intro v w hv hw hvw
    rw [checkDocument, checkDocument, hv, hw]
    refine .bind (f.guard_mirrors hb hredact hvw).capture fun result => ?_
    exact .bind (.report _) fun _ => .pure _
  -- a document that both readers have is a case of two that cannot be told apart
  cases h with
  | indistinct hv hw hvw => exact hindistinct hv hw hvw
  | same h =>
    cases hload : loadDocument r path with
    | error fault =>
      rw [checkDocument, checkDocument, ← h, hload]
      exact .pure _
    | ok v => exact hindistinct hload (h.symm.trans hload) (.refl f v)

/-- **So do the checks of all documents**, one after the other. -/
theorem checkDocuments_mirrors (hb : f.builder = .ok b) (hredact : settings.redact = true)
    {documents : List String} (h : ∀ path ∈ documents, f.LoadsAlike r r' path) :
    Run.Mirrors settings settings (checkDocuments r b.guard documents)
      (checkDocuments r' b.guard documents) := by
  induction documents with
  | nil => exact .pure _
  | cons path rest ih =>
    rw [List.forall_mem_cons] at h
    refine .bind (checkDocument_mirrors hb hredact h.1) fun result => ?_
    -- a document that cannot be loaded ends both runs
    cases result with
    | error fault => exact .pure _
    | ok report => exact .bind (ih h.2) fun _ => .pure _

variable {schema : String} {documents : List String} (quiet : Bool)

theorem build_bind {α : Type} (b : Builder) (next : Guard → Run α) :
    (b.build >>= next) = (Run.report b.builtEvent >>= fun _ => next b.guard) := rfl

/-- From here on both sessions withhold values. -/
theorem configure_mirrors (settings : Settings) :
    Run.Mirrors settings { settings with redact := true }
      (Run.modify fun s => s.configure { s.settings with redact := true })
      (Run.modify fun s => s.configure { s.settings with redact := true }) := by
  refine .modify fun {s t} hst => ?_
  rw [hst.left, hst.right]
  exact hst.configure _

/-- The command shows the same. The settings that it leaves depend on whether the guard is built, and
that depends on the schema file alone. -/
theorem runCheck_mirrors (hload : SchemaFile.load r schema = .ok f)
    (hload' : SchemaFile.load r' schema = .ok f)
    (h : ∀ path ∈ documents, f.LoadsAlike r r' path) (settings : Settings) :
    ∃ after, Run.Mirrors settings after (runCheck r schema documents true quiet)
      (runCheck r' schema documents true quiet) := by
  simp only [runCheck, hload, hload']
  -- the guard is built in both runs or in neither, with the same event
  cases hb : f.builder with
  | error fault => exact ⟨settings, .pure _⟩
  | ok b =>
    refine ⟨{ settings with redact := true }, ?_⟩
    simp only [build_bind, if_true]
    refine .bind (.report b.builtEvent) fun _ => .bind (configure_mirrors settings) fun _ => ?_
    refine .bind (checkDocuments_mirrors hb rfl h) fun result => ?_
    cases result.2 with
    | some fault => exact .pure _
    | none => exact .pure _

/-- **The whole invocation shows the same**: the environment is read alike, and a failure of the
command is reported alike. -/
theorem runInvocation_mirrors (env : Environment) (verbosity : Nat)
    (hload : SchemaFile.load r schema = .ok f) (hload' : SchemaFile.load r' schema = .ok f)
    (h : ∀ path ∈ documents, f.LoadsAlike r r' path) (settings : Settings) :
    ∃ after, Run.Mirrors settings after
      (runInvocation env r ⟨verbosity, .check schema documents true quiet⟩)
      (runInvocation env r' ⟨verbosity, .check schema documents true quiet⟩) := by
  simp only [runInvocation, runCommand]
  -- a variable that spells no truth value ends both runs before the command
  cases Settings.ofEnvironment env with
  | error e => exact ⟨settings, .bind (.report _) fun _ => .pure _⟩
  | ok installed =>
    obtain ⟨after, hcheck⟩ := runCheck_mirrors quiet hload hload' h installed
    refine ⟨after, ?_⟩
    refine .bind (.modify fun hst => (hst.configure installed).report _) fun _ => ?_
    refine .bind (.bind hcheck fun _ => .pure _) fun result => ?_
    obtain ⟨text, _ | code⟩ := result
    · exact .bind (.report _) fun _ => .pure _
    · exact .pure _

end

/-! ## The headline -/

/-- **A check that withholds values does not tell payloads apart.** Let two readers have the same schema
file and, for every document, the same at its path or candidates with the same own keys in the same
order, of which the guards of the file say the same: the same verdict and the same number of elements
rejected in arrays. Then a check that is told to withhold values puts out the same text, logs the same
events at every verbosity and ends with the same exit code, in whichever environment. -/
theorem execute_check_redacted {args : List String} {verbosity : Nat} {schema : String}
    {documents : List String} {quiet : Bool} {f : SchemaFile} {r r' : Reader}
    (hargs : Arguments.parse args = .run ⟨verbosity, .check schema documents true quiet⟩)
    (hload : SchemaFile.load r schema = .ok f) (hload' : SchemaFile.load r' schema = .ok f)
    (h : ∀ path ∈ documents, f.LoadsAlike r r' path) (env : Environment) :
    execute args env r = execute args env r' := by
  obtain ⟨after, hinvocation⟩ :=
    runInvocation_mirrors quiet env verbosity hload hload' h .standard
  have hstart : (Session.start .standard).Mirrors .standard (Session.start .standard) :=
    ⟨rfl, rfl, rfl⟩
  obtain ⟨result, s, t, hrun, hrun', hst⟩ := hinvocation hstart
  -- what the two logs differ in is filtered out at every verbosity
  rw [execute, execute, hargs]
  simp only [hrun, hrun', hst.filter_shows]

/-- A text that names no date is rejected as an element of an array, and what stands beside it differs
altogether. The environment asks for values, and everything from `debug` on is logged; told not to
withhold anything, the check does tell the two documents apart. -/
theorem execute_check_redacted_days :
    let schemaText := "\x7b\"name\": \"T\", \"properties\": \x7b\"days\": " ++
      "\x7b\"type\": \"array-of\", \"items\": \"date-string\"\x7d\x7d\x7d"
    let text := "\x7b\"note\": true, \"days\": [\"soon\"]\x7d"
    let text' := "\x7b\"note\": \x7b\"k\": \"v\"\x7d, \"days\": [\"2020-01-01\", \"later\"]\x7d"
    let args := ["-vv", "check", "--redact", "--schema", "t.json", "d.json"]
    let env : Environment := [("GUARDKIT_REDACT_VALUES", "off".toUTF8)]
    let r : Reader := FileTree.read (.ofPaths
      [("t.json", some schemaText.toUTF8), ("d.json", some text.toUTF8)])
    let r' : Reader := FileTree.read (.ofPaths
      [("t.json", some schemaText.toUTF8), ("d.json", some text'.toUTF8)])
    Arguments.parse args = .run ⟨2, .check "t.json" ["d.json"] true false⟩ ∧
      execute args env r = execute args env r' ∧
      (execute (args.erase "--redact") env r).stdout ≠
        (execute (args.erase "--redact") env r').stdout := by
  intro schemaText text text' args env r r'
  let tree : Json := .object [("name", .string "T"), ("properties", .object [("days",
    .object [("type", .string "array-of"), ("items", .string "date-string")])])]
  let f : SchemaFile :=
    ⟨"T", none, none, [("days", .detailed "array-of" false (some (.bare "date-string")) none)]⟩
  let v : Value := .object [("note", .bool true), ("days", .array [.string "soon"])]
  let w : Value := .object [("note", .object [("k", .string "v")]),
    ("days", .array [.string "2020-01-01", .string "later"])]
  have hargs : Arguments.parse args = .run ⟨2, .check "t.json" ["d.json"] true false⟩ := by
    decide +kernel
  have hschema : (Format.ofPath "t.json").read? schemaText = some tree := by
    simp only [schemaText]
    rfl
  have hf : SchemaFile.ofJson tree = .ok f := by
    simp [tree, SchemaFile.ofJson, SchemaParts.ofJson, SchemaParts.setField, SchemaParts.setName,
      SchemaParts.setProperties, SchemaParts.none, SchemaFile.property, PropertySpec.ofJson?,
      PropertySpec.ofFields?, PropertySpec.ofItems?, SpecParts.none, SpecParts.setKind,
      SpecParts.spec?, bind, Except.bind, pure, Except.pure, f]
  have hload : SchemaFile.load r "t.json" = .ok f := by
    have htext : (r.text "t.json").toOption = some schemaText := by decide +kernel
    exact SchemaFile.load_of_text htext hschema hf
  have hload' : SchemaFile.load r' "t.json" = .ok f := by
    have htext : (r'.text "t.json").toOption = some schemaText := by decide +kernel
    exact SchemaFile.load_of_text htext hschema hf
  have hv : loadDocument r "d.json" = .ok v := by
    have htext : (r.text "d.json").toOption = some text := by decide +kernel
    have hread : (Format.ofPath "d.json").read? text =
        some (.object [("note", .bool true), ("days", .array [.string "soon"])]) := by
      simp only [text]
      rfl
    exact loadDocument_of_text htext hread
  have hw : loadDocument r' "d.json" = .ok w := by
    have htext : (r'.text "d.json").toOption = some text' := by decide +kernel
    have hread : (Format.ofPath "d.json").read? text' =
        some (.object [("note", .object [("k", .string "v")]),
          ("days", .array [.string "2020-01-01", .string "later"])]) := by
      simp only [text']
      rfl
    exact loadDocument_of_text htext hread
  have hindistinct : f.Indistinct v w := by
    constructor
    · intro rule hrule
      cases hrule
    · refine .some (.cons ⟨rfl, fun rules hrules rule hrule => ?note⟩
        (.cons ⟨rfl, fun rules hrules rule hrule => ?days⟩ .nil))
      case note =>
        -- nothing is listed under this key
        cases hrules
        have hkey : "note" = "days" := congrArg Prod.fst (List.mem_singleton.mp hrule)
        exact absurd hkey (by decide)
      case days =>
        cases hrules
        cases List.mem_singleton.mp hrule
        decide +kernel
  refine ⟨hargs, ?_, ?_⟩
  · exact execute_check_redacted hargs hload hload'
      (List.forall_mem_singleton.mpr (.indistinct hv hw hindistinct)) env
  · have hargs' : Arguments.parse (args.erase "--redact") =
        .run ⟨2, .check "t.json" ["d.json"] false false⟩ := by
      decide +kernel
    have henv : Settings.ofEnvironment env = .ok .standard := by decide +kernel
    have hb : f.builder = .ok _ := rfl
    have hloaded : ∀ d ∈ [("d.json", v)], loadDocument r d.1 = .ok d.2 :=
      List.forall_mem_singleton.mpr hv
    have hloaded' : ∀ d ∈ [("d.json", w)], loadDocument r' d.1 = .ok d.2 :=
      List.forall_mem_singleton.mpr hw
    rw [stdout_of_loaded hargs' henv hload hb rfl hloaded,
      stdout_of_loaded hargs' henv hload' hb rfl hloaded']
    decide +kernel

end RecordGuard
