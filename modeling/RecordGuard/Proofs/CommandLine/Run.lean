import RecordGuard.CommandLine.Execute
import RecordGuard.Proofs.Schema.Reading

/-!
# Runs of the command line

A run of `check` classifies one document after the other, all of them in the same process. This
module shows that the reports do not feel each other, and what the run as a whole comes to.

* **`DocumentReport.alone`** — the report on a document that is checked by itself.
* **`checkDocuments_eq`** — the transport: by induction on the documents, the reports of a run are
  those of the documents by themselves, up to the first document that cannot be loaded.
* **`execute_check`** — the headline.
-/

namespace RecordGuard

/-! ## Reports -/

/-- The report on a document that holds `v` and is checked by itself, with nothing before it. -/
def DocumentReport.alone (g : Guard) (settings : Settings) (path : String) (v : Value) :
    DocumentReport :=
  let (passed, diagnostics) :=
    ((Run.capture (g.verdict v) (Session.start settings)).1).getD (false, [])
  ⟨path, passed, diagnostics⟩

/-- A check in the course of a run yields what the document by itself yields. -/
theorem DocumentReport.alone_eq {g : Guard} (hcode : g.code = []) (settings : Settings)
    (path : String) (v : Value) :
    (∀ s, (g.verdict v s).1 = some (alone g settings path v).passed) ∧
      ∀ s, s.settings = settings →
        Run.capture (g.verdict v) s =
          (some ((alone g settings path v).passed, (alone g settings path v).diagnostics),
            (g.verdict v s).2) := by
  obtain ⟨passed, ds, hverdict, hcapture⟩ := Guard.capture_of_code_nil hcode settings v
  have halone : alone g settings path v = ⟨path, passed, ds⟩ := by
    rw [alone, hcapture (Session.start settings) rfl]
    rfl
  rw [halone]
  exact ⟨hverdict, hcapture⟩

def reportsAlone (g : Guard) (settings : Settings) (loaded : List (String × Value)) :
    List DocumentReport :=
  loaded.map fun d => .alone g settings d.1 d.2

/-- The documents that are loaded before a run ends, and what it ends with: nothing, or the fault of
the first document that cannot be loaded. -/
inductive LoadedFrom (r : Reader) (documents : List String) (loaded : List (String × Value)) :
    Option DocumentFault → Prop where
  | all (hdocuments : documents = loaded.map (·.1)) : LoadedFrom r documents loaded none
  | stopped {path : String} {rest : List String} {fault : DocumentFault}
      (hdocuments : documents = loaded.map (·.1) ++ path :: rest)
      (hfault : loadDocument r path = .error fault) : LoadedFrom r documents loaded (some fault)

/-- One more document in front that is loaded. -/
theorem LoadedFrom.cons {r : Reader} {documents : List String} {loaded : List (String × Value)}
    {fault : Option DocumentFault} (h : LoadedFrom r documents loaded fault) (path : String)
    (v : Value) : LoadedFrom r (path :: documents) ((path, v) :: loaded) fault := by
  cases h with
  | all hdocuments => exact .all (congrArg (path :: ·) hdocuments)
  | stopped hdocuments hfault => exact .stopped (congrArg (path :: ·) hdocuments) hfault

theorem checkDocument_of_error {r : Reader} {path : String} {fault : DocumentFault}
    (hload : loadDocument r path = .error fault) (g : Guard) (s : Session) :
    checkDocument r g path s = (some (.error fault), s) := by
  rw [checkDocument, hload]
  rfl

/-- **A document that is loaded gets the report that it gets by itself**, and leaves the settings to
the next. -/
theorem checkDocument_of_ok {r : Reader} {g : Guard} (hcode : g.code = []) {path : String}
    {v : Value} (hload : loadDocument r path = .ok v) (s : Session) :
    ∃ s', s'.settings = s.settings ∧
      checkDocument r g path s = (some (.ok (.alone g s.settings path v)), s') := by
  rw [checkDocument, hload]
  refine ⟨_, ?_, Run.bind_eq ((DocumentReport.alone_eq hcode s.settings path v).2 s rfl)⟩
  exact Guard.settings_of_code_nil hcode v s

/-- **The reports of a run are those of the documents by themselves.** -/
theorem checkDocuments_eq {r : Reader} {g : Guard} (hcode : g.code = []) (documents : List String)
    (s : Session) :
    ∃ loaded fault s',
      checkDocuments r g documents s =
        (some (reportsAlone g s.settings loaded, fault), s') ∧
      (∀ d ∈ loaded, loadDocument r d.1 = .ok d.2) ∧ LoadedFrom r documents loaded fault := by
  induction documents generalizing s with
  | nil => exact ⟨[], none, s, rfl, by simp, .all rfl⟩
  | cons path rest ih =>
    -- the first document that cannot be loaded ends the run
    cases hload : loadDocument r path with
    | error fault =>
      refine ⟨[], some fault, s, ?_, by simp, .stopped rfl hload⟩
      exact Run.bind_eq (checkDocument_of_error hload g s)
    | ok v =>
      -- the settings are all that the next document has from this one
      obtain ⟨s₁, hsettings, hdocument⟩ := checkDocument_of_ok hcode hload s
      obtain ⟨loaded, fault, s₂, hrest, hloaded, hfrom⟩ := ih s₁
      refine ⟨(path, v) :: loaded, fault, s₂, ?_, ?_, hfrom.cons path v⟩
      · rw [checkDocuments, Run.bind_eq hdocument]
        refine (Run.bind_eq hrest).trans ?_
        rw [hsettings]
        rfl
      · exact List.forall_mem_cons.mpr ⟨hload, hloaded⟩

/-! ## The run -/

theorem unlines_append (lines others : List String) :
    unlines (lines ++ others) = unlines lines ++ unlines others := by
  rw [unlines, List.map_append, String.join_append]
  rfl

theorem unlines_singleton (line : String) : unlines [line] = line ++ "\n" := by
  simp [unlines]

def DocumentReport.block (quiet : Bool) (d : DocumentReport) : String := unlines (d.lines quiet)

/-- The lines on all documents are the blocks of the documents. -/
theorem unlines_flatMap_lines (quiet : Bool) (reports : List DocumentReport) :
    unlines (reports.flatMap (·.lines quiet)) = String.join (reports.map (·.block quiet)) := by
  induction reports with
  | nil => rfl
  | cons report rest ih =>
    rw [List.flatMap_cons, unlines_append, ih, List.map_cons, String.join_cons]
    rfl

/-- The settings of a check that may be told to withhold values. -/
def Settings.redacted (settings : Settings) (redact : Bool) : Settings :=
  ⟨settings.enabled, settings.redact || redact⟩

/-- What a run of checks comes to, given its reports and the fault that ended it, if one did. -/
def CommandResult.ofReports (quiet : Bool) (name : String) (reports : List DocumentReport) :
    Option DocumentFault → CommandResult
  | some fault => ⟨reports.flatMap (·.lines quiet), .error (.document fault)⟩
  | none =>
    ⟨reports.flatMap (·.lines quiet) ++ [summaryLine name reports],
      .ok (if reports.all (·.passed) then 0 else 1)⟩

/-- The command of a check whose guard is built: the documents are checked with the settings in
effect, but for what the command itself withholds. -/
theorem runCheck_eq {r : Reader} {schema : String} {f : SchemaFile} {b : Builder}
    (hload : SchemaFile.load r schema = .ok f) (hb : f.builder = .ok b) (documents : List String)
    (redact quiet : Bool) (s : Session) :
    ∃ s₁, s₁.settings = s.settings.redacted redact ∧
      ∀ reports fault s₂, checkDocuments r b.guard documents s₁ = (some (reports, fault), s₂) →
        runCheck r schema documents redact quiet s =
          (some (.ofReports quiet f.name reports fault), s₂) := by
  have hbuild : b.build s = (some b.guard, s.report b.builtEvent) := rfl
  simp only [runCheck, hload, hb]
  rw [Run.bind_eq hbuild]
  -- without the option the settings are left alone; with it they are changed before the first
  -- document
  cases redact with
  | false =>
    refine ⟨s.report b.builtEvent, by simp [Session.report, Settings.redacted], ?_⟩
    intro reports fault s₂ hrun
    refine (Run.bind_eq hrun).trans ?_
    cases fault <;> rfl
  | true =>
    refine ⟨(s.report b.builtEvent).configure ⟨s.settings.enabled, true⟩,
      by simp [Session.configure, Settings.redacted], ?_⟩
    intro reports fault s₂ hrun
    refine (Run.bind_eq rfl).trans ((Run.bind_eq hrun).trans ?_)
    cases fault <;> rfl

def CommandResult.exitCode (result : CommandResult) : Nat :=
  match result.code with
  | .ok code => code
  | .error _ => 2

/-- **What a run puts out is what its command comes to**: its lines, and its exit code. -/
theorem execute_of_runCheck {args : List String} {env : Environment} {r : Reader} {verbosity : Nat}
    {schema : String} {documents : List String} {redact quiet : Bool} {settings : Settings}
    {result : CommandResult} {s : Session}
    (hargs : Arguments.parse args = .run ⟨verbosity, .check schema documents redact quiet⟩)
    (henv : Settings.ofEnvironment env = .ok settings)
    (hrun : runCheck r schema documents redact quiet
      ((Session.start .standard).install settings) = (some result, s)) :
    (execute args env r).stdout = unlines result.lines ∧
      (execute args env r).code = result.exitCode := by
  -- the command first, then the invocation around it
  have hcommand : runCommand r (.check schema documents redact quiet)
      ((Session.start .standard).install settings) =
        (some (unlines result.lines, result.code), s) := Run.bind_eq hrun
  have hinvocation : runInvocation env r ⟨verbosity, .check schema documents redact quiet⟩
      (Session.start .standard) =
        match result.code with
        | .ok code => (some (unlines result.lines, code), s)
        | .error fault => (some (unlines result.lines, 2), s.report (.runFailed fault.message)) := by
    simp only [runInvocation, henv]
    refine (Run.bind_eq rfl).trans ((Run.bind_eq hcommand).trans ?_)
    cases result.code <;> rfl
  rw [execute, hargs, CommandResult.exitCode]
  simp only [hinvocation]
  cases result.code <;> exact ⟨rfl, rfl⟩

/-! ## The headline -/

/-- What a run of checks puts out, in the two ways in which it may end. -/
inductive CheckOutcome (r : Reader) (g : Guard) (settings : Settings) (quiet : Bool) (name : String)
    (documents : List String) (e : Execution) : Prop where
  /-- Every document is loaded. -/
  | complete {loaded : List (String × Value)} {accepted rejected : Nat}
      (hdocuments : documents = loaded.map (·.1))
      (hloaded : ∀ d ∈ loaded, loadDocument r d.1 = .ok d.2)
      (haccepted : accepted = (reportsAlone g settings loaded).countP fun d => d.passed)
      (hrejected : rejected = (reportsAlone g settings loaded).countP fun d => !d.passed)
      (htotal : accepted + rejected = documents.length)
      (hstdout : e.stdout =
        String.join ((reportsAlone g settings loaded).map (·.block quiet)) ++
          (Nat.repr accepted ++ " of " ++ Nat.repr documents.length ++ " document(s) conform to " ++
            name ++ "\n"))
      (hcode : e.code = if rejected = 0 then 0 else 1)
  /-- The documents up to `path` are loaded, and the one at `path` cannot be. -/
  | stopped {loaded : List (String × Value)} {path : String} {rest : List String}
      {fault : DocumentFault} (hdocuments : documents = loaded.map (·.1) ++ path :: rest)
      (hloaded : ∀ d ∈ loaded, loadDocument r d.1 = .ok d.2)
      (hfault : loadDocument r path = .error fault)
      (hstdout : e.stdout = String.join ((reportsAlone g settings loaded).map (·.block quiet)))
      (hcode : e.code = 2)

theorem all_passed_iff (reports : List DocumentReport) :
    reports.all (·.passed) = true ↔ (reports.countP fun d => !d.passed) = 0 := by
  simp [List.countP_eq_zero]

theorem countP_passed_add (reports : List DocumentReport) :
    (reports.countP fun d => d.passed) + (reports.countP fun d => !d.passed) = reports.length := by
  have h := List.length_eq_countP_add_countP (fun d : DocumentReport => d.passed) (l := reports)
  simpa using h.symm

section

variable {args : List String} {env : Environment} {r : Reader} {verbosity : Nat} {schema : String}
  {documents : List String} {redact quiet : Bool}

/-- A variable that spells no truth value ends a run before it puts anything out. -/
theorem execute_of_invalidFlag {e : InvalidFlag}
    (hargs : Arguments.parse args = .run ⟨verbosity, .check schema documents redact quiet⟩)
    (henv : Settings.ofEnvironment env = .error e) :
    (execute args env r).code = 2 ∧ (execute args env r).stdout = "" := by
  have hinvocation : runInvocation env r ⟨verbosity, .check schema documents redact quiet⟩
      (Session.start .standard) =
        (some ("", 2), (Session.start .standard).report (.runFailed e.message)) := by
    simp only [runInvocation, henv]
    exact Run.bind_eq rfl
  rw [execute, hargs]
  simp only [hinvocation]
  exact ⟨rfl, rfl⟩

/-- A run whose guard is there: the reports on the documents by themselves. -/
theorem execute_of_builder {settings : Settings} {f : SchemaFile} {b : Builder}
    (hargs : Arguments.parse args = .run ⟨verbosity, .check schema documents redact quiet⟩)
    (henv : Settings.ofEnvironment env = .ok settings) (hload : SchemaFile.load r schema = .ok f)
    (hb : f.builder = .ok b) :
    ∃ loaded fault, (∀ d ∈ loaded, loadDocument r d.1 = .ok d.2) ∧
      LoadedFrom r documents loaded fault ∧
      let reports := reportsAlone b.guard (settings.redacted redact) loaded
      (execute args env r).stdout =
          unlines (CommandResult.ofReports quiet f.name reports fault).lines ∧
        (execute args env r).code =
          (CommandResult.ofReports quiet f.name reports fault).exitCode := by
  obtain ⟨s₁, hsettings, hrun⟩ := runCheck_eq hload hb documents redact quiet
    ((Session.start .standard).install settings)
  obtain ⟨loaded, fault, s₂, hchecked, hloaded, hfrom⟩ :=
    checkDocuments_eq (SchemaFile.code_of_builder hb) documents s₁
  have hresult := execute_of_runCheck hargs henv (hrun _ _ _ hchecked)
  rw [show s₁.settings = settings.redacted redact from hsettings] at hresult
  exact ⟨loaded, fault, hloaded, hfrom, hresult⟩

/-- A run that fails before its guard is there. -/
theorem execute_of_fault {fault : CommandFault}
    (hargs : Arguments.parse args = .run ⟨verbosity, .check schema documents redact quiet⟩)
    (hrun : ∀ s, runCheck r schema documents redact quiet s = (some ⟨[], .error fault⟩, s)) :
    (execute args env r).code = 2 ∧ (execute args env r).stdout = "" := by
  cases henv : Settings.ofEnvironment env with
  | error e => exact execute_of_invalidFlag hargs henv
  | ok settings =>
    obtain ⟨hstdout, hcode⟩ := execute_of_runCheck hargs henv (hrun _)
    exact ⟨hcode, hstdout⟩

/-- **What a check of documents comes to.** The exit code is 2, and nothing is put out, if a variable
of the environment spells no truth value, or the schema file cannot be loaded, or its guard cannot
be built. Otherwise the documents are reported on in order, up to the first that cannot be loaded;
such a document makes the exit code 2. If there is none, a summary follows, and the exit code is 0
if the guard accepts every document and 1 if it rejects one.

The report on a document is what the guard and the settings make of it by itself: the verdict is that
of the guard in any session, and the diagnostics are those of a capture in any session with these
settings. -/
theorem execute_check
    (hargs : Arguments.parse args = .run ⟨verbosity, .check schema documents redact quiet⟩) :
    ((∃ e, Settings.ofEnvironment env = .error e) ∨ (∃ e, SchemaFile.load r schema = .error e) ∨
        (∃ f e, SchemaFile.load r schema = .ok f ∧ f.builder = .error e) →
      (execute args env r).code = 2 ∧ (execute args env r).stdout = "") ∧
    ∀ settings f b, Settings.ofEnvironment env = .ok settings →
      SchemaFile.load r schema = .ok f → f.builder = .ok b →
      CheckOutcome r b.guard (settings.redacted redact) quiet f.name documents
          (execute args env r) ∧
        ∀ path v,
          (∀ s, (b.guard.verdict v s).1 =
            some (DocumentReport.alone b.guard (settings.redacted redact) path v).passed) ∧
          ∀ s, s.settings = settings.redacted redact →
            (Run.capture (b.guard.verdict v) s).1 =
              some ((DocumentReport.alone b.guard (settings.redacted redact) path v).passed,
                (DocumentReport.alone b.guard (settings.redacted redact) path v).diagnostics) := by
  refine ⟨?_, fun settings f b henv hload hb => ⟨?_, fun path v => ?_⟩⟩
  · rintro (⟨e, henv⟩ | ⟨e, hload⟩ | ⟨f, e, hload, hb⟩)
    · exact execute_of_invalidFlag hargs henv
    · have hrun : ∀ s, runCheck r schema documents redact quiet s =
          (some ⟨[], .error (.schema e)⟩, s) := by
        intro s
        simp only [runCheck, hload]
        rfl
      exact execute_of_fault hargs hrun
    · have hrun : ∀ s, runCheck r schema documents redact quiet s =
          (some ⟨[], .error (.guard schema e)⟩, s) := by
        intro s
        simp only [runCheck, hload, hb]
        rfl
      exact execute_of_fault hargs hrun
  · obtain ⟨loaded, fault, hloaded, hfrom, hstdout, hcode⟩ :=
      execute_of_builder hargs henv hload hb
    cases hfrom with
    | all hdocuments =>
      -- the summary counts reports, and there is one for every document
      have hlength : (reportsAlone b.guard (settings.redacted redact) loaded).length =
          documents.length := by
        rw [hdocuments, reportsAlone, List.length_map, List.length_map]
      refine .complete hdocuments hloaded rfl rfl ?_ ?_ ?_
      · rw [countP_passed_add, hlength]
      · rw [hstdout, ← hlength]
        refine (unlines_append _ _).trans ?_
        rw [unlines_flatMap_lines, unlines_singleton]
        rfl
      · rw [hcode]
        exact if_congr (all_passed_iff _) rfl rfl
    | stopped hdocuments hfault =>
      refine .stopped hdocuments hloaded hfault ?_ hcode
      rw [hstdout]
      exact unlines_flatMap_lines quiet _
  · obtain ⟨hverdict, hcapture⟩ :=
      DocumentReport.alone_eq (SchemaFile.code_of_builder hb) (settings.redacted redact) path v
    exact ⟨hverdict, fun s hs => by rw [hcapture s hs]⟩

end

/-- Of four documents the third cannot be read: what was found before it is reported all the same, and
a rejection among that does not change the exit code. -/
theorem execute_check_stopped :
    let args := ["check", "--schema", "t.json", "a.json", "b.json", "gone.json", "a.json"]
    let r : Reader := FileTree.read (.ofPaths
      [("t.json", some "\x7b\"name\": \"T\", \"properties\": \x7b\x7d\x7d".toUTF8),
        ("a.json", some "\x7b\"id\": 1\x7d".toUTF8), ("b.json", some "1".toUTF8)])
    Arguments.parse args =
        .run ⟨0, .check "t.json" ["a.json", "b.json", "gone.json", "a.json"] false false⟩ ∧
      (∃ f b, SchemaFile.load r "t.json" = .ok f ∧ f.builder = .ok b ∧
        CheckOutcome r b.guard .standard false f.name ["a.json", "b.json", "gone.json", "a.json"]
          (execute args [] r)) ∧
      (execute args [] r).code = 2 ∧
      (execute args [] r).stdout =
        "PASS a.json\n  [T] no validator registered for property \"id\"\nFAIL b.json\n" := by
  intro args r
  have hargs : Arguments.parse args =
      .run ⟨0, .check "t.json" ["a.json", "b.json", "gone.json", "a.json"] false false⟩ := by
    decide +kernel
  have hbuilds : ((SchemaFile.load r "t.json").toOption.bind fun f =>
      f.builder.toOption).isSome = true := by
    decide +kernel
  refine ⟨hargs, ?_, by decide +kernel, by decide +kernel⟩
  cases hload : SchemaFile.load r "t.json" with
  | error e => simp [hload, Except.toOption] at hbuilds
  | ok f =>
    cases hb : f.builder with
    | error e => simp [hload, hb, Except.toOption] at hbuilds
    | ok b => exact ⟨f, b, rfl, hb, ((execute_check hargs).2 .standard f b rfl hload hb).1⟩

end RecordGuard
