import RecordGuard.Proofs.CommandLine.Lines
import RecordGuard.Proofs.Value.Text

/-!
# What is found and how it is shown

What a check of documents finds is fixed by the schema file and the documents: the verdicts, what there
is to say about each document, the summary and the exit code. Options and the environment choose how
much of that shows and whether values show with it, and nothing else.

* **`Findings`**, **`Findings.of`** — what there is to find.
* **`DocumentReport.presented`** — a report as some settings show it.
* **`DocumentReport.alone_eq_presented`** — a report made under some settings is the report made under
  the standard ones, as these settings show it.
* **`execute_check_presented`** — the headline.
-/

namespace RecordGuard

/-! ## Reports as they are shown -/

/-- The diagnostic with the placeholder for its value, if it has one. -/
def Diagnostic.veil (d : Diagnostic) : Diagnostic := { d with value := d.value.map fun _ => withheld }

/-- The report as the settings show it: without diagnostics, or with their values withheld, or as it
is. -/
def DocumentReport.presented (settings : Settings) (d : DocumentReport) : DocumentReport :=
  { d with diagnostics :=
      if settings.enabled then
        if settings.redact then d.diagnostics.map Diagnostic.veil else d.diagnostics
      else [] }

theorem Diagnostic.sameOutline_veil (d : Diagnostic) : d.SameOutline d.veil :=
  ⟨rfl, rfl, rfl, by simp [Diagnostic.veil]⟩

namespace DocumentReport

variable {settings : Settings} {report : DocumentReport}

theorem diagnostics_presented_of_off (h : settings.enabled = false) :
    (report.presented settings).diagnostics = [] := by
  rw [presented, h]
  rfl

theorem diagnostics_presented_of_on (h : settings.enabled = true) :
    (report.presented settings).diagnostics =
      if settings.redact then report.diagnostics.map Diagnostic.veil else report.diagnostics := by
  rw [presented, h]
  rfl

/-- Whatever shows is what there is, values aside. -/
theorem sameOutline_presented (h : settings.enabled = true) :
    List.Forall₂ Diagnostic.SameOutline report.diagnostics
      (report.presented settings).diagnostics := by
  rw [diagnostics_presented_of_on h]
  split
  · exact List.forall₂_map_right_iff.mpr (List.forall₂_same.mpr fun d _ => d.sameOutline_veil)
  · exact List.forall₂_same.mpr fun d _ => .refl d

/-- A value shows as the placeholder exactly if values are withheld. -/
theorem eq_withheld_iff (hvalues : ∀ d ∈ report.diagnostics, d.value ≠ some withheld)
    {d : Diagnostic} (hd : d ∈ (report.presented settings).diagnostics) {text : String}
    (htext : d.value = some text) : text = withheld ↔ settings.redact = true := by
  -- nothing shows while diagnostics are off, so no value does
  cases hon : settings.enabled with
  | false =>
    rw [diagnostics_presented_of_off hon] at hd
    cases hd
  | true =>
    rw [diagnostics_presented_of_on hon] at hd
    cases hredact : settings.redact with
    | false =>
      rw [hredact] at hd
      simpa [htext] using hvalues d hd
    | true =>
      rw [hredact] at hd
      obtain ⟨e, -, rfl⟩ := List.mem_map.mp hd
      obtain ⟨_, -, hplaceholder⟩ := Option.map_eq_some_iff.mp htext
      exact iff_of_true hplaceholder.symm rfl

end DocumentReport

/-- Where nothing is the caller's own, withholding puts the placeholder for each value. -/
theorem Diagnostic.Veiled.eq_veil {d e : Diagnostic} (h : Diagnostic.Veiled [] d e) :
    e = d.veil ∧ d.value ≠ some withheld := by
  -- a diagnostic without a value, one of a rejection, and none that code has sent
  cases h with
  | bare d hd => exact ⟨by rw [Diagnostic.veil, hd]; cases d; cases hd; rfl, by simp [hd]⟩
  | rejected schema target _ v => exact ⟨rfl, fun h => v.text_ne_withheld (Option.some.inj h)⟩
  | code hp => cases hp

/-- Diagnostics in a row are veiled one by one. -/
theorem forall₂_veiled {ds es : List Diagnostic} (h : List.Forall₂ (Diagnostic.Veiled []) ds es) :
    es = ds.map Diagnostic.veil ∧ ∀ d ∈ ds, d.value ≠ some withheld := by
  induction h with
  | nil => exact ⟨rfl, List.forall_mem_nil _⟩
  | cons hde _ ih =>
    obtain ⟨rfl, hd⟩ := hde.eq_veil
    obtain ⟨rfl, hds⟩ := ih
    exact ⟨rfl, List.forall_mem_cons.mpr ⟨hd, hds⟩⟩

section

variable {g : Guard} (hcode : g.code = []) (path : String) (v : Value)

include hcode

/-- A report has what the check sends, unless diagnostics are off. -/
theorem DocumentReport.diagnostics_alone (settings : Settings) :
    (alone g settings path v).diagnostics =
      if settings.enabled then emitted ((g.check v).history (Session.start settings)) else [] := by
  have hcapture := (alone_eq hcode settings path v).2 (Session.start settings) rfl
  have hcollects := (g.check v).traced.collects (Session.start settings)
  rw [show Run.capture (g.check v).run _ = _ from hcapture] at hcollects
  obtain ⟨verdict, -, hds⟩ := Option.map_eq_some_iff.mp (congrArg Prod.fst hcollects).symm
  obtain ⟨-, hsent⟩ := Prod.mk.inj hds
  have hunchanged : Unchanged settings ((g.check v).history (Session.start settings)) :=
    g.unchanged_check (by simp [hcode]) (by simp [hcode]) v (Session.start settings)
  rw [← hsent, ← sent_of_unchanged hunchanged]
  rfl

/-- What is sent while values are withheld is what is sent while they show, veiled. -/
theorem Guard.forall₂_veiled_emitted :
    List.Forall₂ (Diagnostic.Veiled []) (emitted ((g.check v).history (Session.start .standard)))
      (emitted ((g.check v).history (Session.start ⟨true, true⟩))) := by
  have hc : Concord Session.Veiled (Parallel Session.Veiled g.code) :=
    concord_parallel Session.Veiled.alike g.code
  have hstart : (Session.start .standard).Veiled (Session.start ⟨true, true⟩) := ⟨rfl, rfl, .nil⟩
  obtain ⟨-, -, -, hparallel, -⟩ := g.concur_self hc (by simp [hcode]) v hstart
  have hveiled := hparallel.veiled (by simp [hcode])
  rwa [hcode] at hveiled

/-- No value that shows is the placeholder. -/
theorem DocumentReport.value_ne_withheld :
    ∀ d ∈ (alone g .standard path v).diagnostics, d.value ≠ some withheld := by
  have hon : Settings.standard.enabled = true := rfl
  rw [diagnostics_alone hcode path v, if_pos hon]
  exact (forall₂_veiled (Guard.forall₂_veiled_emitted hcode v)).2

/-- **A report is the standard one, as the settings show it.** -/
theorem DocumentReport.alone_eq_presented (settings : Settings) :
    alone g settings path v = (alone g .standard path v).presented settings := by
  -- the verdict has nothing to do with the settings
  have hpassed : (alone g settings path v).passed = (alone g .standard path v).passed := by
    have h := (alone_eq hcode settings path v).1 (Session.start .standard)
    rw [(alone_eq hcode .standard path v).1 (Session.start .standard)] at h
    exact (Option.some.inj h).symm
  -- of the diagnostics there are none, all as they are, or all of them veiled
  have hdiagnostics : (alone g settings path v).diagnostics =
      ((alone g .standard path v).presented settings).diagnostics := by
    have hveiled := (forall₂_veiled (Guard.forall₂_veiled_emitted hcode v)).1
    rw [presented, diagnostics_alone hcode path v, diagnostics_alone hcode path v]
    obtain ⟨_ | _, _ | _⟩ := settings
    · rfl
    · rfl
    · rfl
    · exact hveiled
  calc
    alone g settings path v =
        ⟨path, (alone g settings path v).passed, (alone g settings path v).diagnostics⟩ := rfl
    _ = ⟨path, (alone g .standard path v).passed,
          ((alone g .standard path v).presented settings).diagnostics⟩ := by
      rw [hpassed, hdiagnostics]
    _ = (alone g .standard path v).presented settings := rfl

end

/-! ## Findings -/

/-- The documents that are loaded in order, and the fault of the first that cannot be. -/
def loadDocuments (r : Reader) : List String → List (String × Value) × Option DocumentFault
  | [] => ([], none)
  | path :: rest =>
    match loadDocument r path with
    | .error fault => ([], some fault)
    | .ok v =>
      let (loaded, fault) := loadDocuments r rest
      ((path, v) :: loaded, fault)

/-- What a run has loaded is what there is to load, up to the same fault. -/
theorem LoadedFrom.loadDocuments_eq {r : Reader} {documents : List String}
    {loaded : List (String × Value)} {fault : Option DocumentFault}
    (h : LoadedFrom r documents loaded fault)
    (hloaded : ∀ d ∈ loaded, loadDocument r d.1 = .ok d.2) :
    loadDocuments r documents = (loaded, fault) := by
  -- induction on what is loaded, since the documents go on behind a fault
  induction loaded generalizing documents with
  | nil =>
    cases h with
    | all hdocuments => rw [hdocuments]; rfl
    | stopped hdocuments hfault =>
      rw [hdocuments, List.map_nil, List.nil_append, loadDocuments, hfault]
  | cons d loaded ih =>
    rw [List.forall_mem_cons] at hloaded
    cases h with
    | all hdocuments =>
      rw [hdocuments, List.map_cons, loadDocuments, hloaded.1]
      simp only [ih (.all rfl) hloaded.2]
    | stopped hdocuments hfault =>
      rw [hdocuments, List.map_cons, List.cons_append, loadDocuments, hloaded.1]
      simp only [ih (.stopped rfl hfault) hloaded.2]

/-- What a check finds. -/
structure Findings where
  /-- All that there is to say about the documents that were loaded. -/
  reports : List DocumentReport
  summary : Option String
  code : Nat

namespace Findings

/-- What there is when no document is looked at. -/
def nothing : Findings := ⟨[], none, 2⟩

def ofReports (name : String) (reports : List DocumentReport) : Option DocumentFault → Findings
  | some _ => ⟨reports, none, 2⟩
  | none => ⟨reports, some (summaryLine name reports), if reports.all (·.passed) then 0 else 1⟩

/-- What a check of these documents finds, given the schema file and nothing else. -/
def of (r : Reader) (schema : String) (documents : List String) : Findings :=
  match SchemaFile.load r schema with
  | .error _ => nothing
  | .ok f =>
    match f.builder with
    | .error _ => nothing
    | .ok b =>
      let (loaded, fault) := loadDocuments r documents
      ofReports f.name (reportsAlone b.guard .standard loaded) fault

/-- The lines in which findings are shown: behind the verdict on each document what is said about it,
if that is wanted, and the summary. -/
def lines (quiet : Bool) (settings : Settings) (found : Findings) : List String :=
  found.reports.flatMap (fun d =>
      d.verdictLine :: if quiet then [] else (d.presented settings).diagnostics.map ("  " ++ ·.text))
    ++ found.summary.toList

/-- The lines of findings are those of the reports as they are shown. -/
theorem lines_ofReports (quiet : Bool) (settings : Settings) (name : String)
    (reports : List DocumentReport) (fault : Option DocumentFault) :
    (ofReports name reports fault).lines quiet settings =
      (CommandResult.ofReports quiet name (reports.map (·.presented settings)) fault).lines := by
  have hlines : (reports.map (·.presented settings)).flatMap (·.lines quiet) =
      reports.flatMap fun d => (d.presented settings).lines quiet :=
    List.flatMap_map _ _ reports
  have hsummary : summaryLine name (reports.map (·.presented settings)) = summaryLine name reports := by
    rw [summaryLine, summaryLine, List.countP_map, List.length_map]
    rfl
  cases fault with
  | none =>
    rw [CommandResult.ofReports, hlines, hsummary]
    rfl
  | some fault =>
    rw [CommandResult.ofReports, hlines]
    exact List.append_nil _

/-- The exit code of findings does not look at what is shown. -/
theorem code_ofReports (quiet : Bool) (settings : Settings) (name : String)
    (reports : List DocumentReport) (fault : Option DocumentFault) :
    (ofReports name reports fault).code =
      (CommandResult.ofReports quiet name (reports.map (·.presented settings)) fault).exitCode := by
  cases fault with
  | none =>
    show (if reports.all (·.passed) then 0 else 1) =
      if (reports.map (·.presented settings)).all (·.passed) then 0 else 1
    rw [List.all_map]
    rfl
  | some fault => rfl

end Findings

/-! ## The headline -/

section

variable {args : List String} {env : Environment} {r : Reader} {verbosity : Nat} {schema : String}
  {documents : List String} {redact quiet : Bool} {settings : Settings}

/-- A run whose guard is there shows what is found. -/
theorem execute_of_findings {f : SchemaFile} {b : Builder}
    (hargs : Arguments.parse args = .run ⟨verbosity, .check schema documents redact quiet⟩)
    (henv : Settings.ofEnvironment env = .ok settings)
    (hload : SchemaFile.load r schema = .ok f) (hb : f.builder = .ok b) :
    (execute args env r).code = (Findings.of r schema documents).code ∧
      (execute args env r).stdout =
        unlines ((Findings.of r schema documents).lines quiet (settings.redacted redact)) := by
  obtain ⟨loaded, fault, hloaded, hfrom, hstdout, hcode⟩ := execute_of_builder hargs henv hload hb
  have hreports : reportsAlone b.guard (settings.redacted redact) loaded =
      (reportsAlone b.guard .standard loaded).map (·.presented (settings.redacted redact)) := by
    rw [reportsAlone, reportsAlone, List.map_map]
    exact List.map_congr_left fun d _ =>
      DocumentReport.alone_eq_presented (SchemaFile.code_of_builder hb) d.1 d.2 _
  have hfound : Findings.of r schema documents =
      .ofReports f.name (reportsAlone b.guard .standard loaded) fault := by
    simp only [Findings.of, hload, hb, hfrom.loadDocuments_eq hloaded]
  rw [hfound, Findings.lines_ofReports, Findings.code_ofReports quiet (settings.redacted redact),
    ← hreports]
  exact ⟨hcode, hstdout⟩

/-- No value that is found has the text of the placeholder. -/
theorem Findings.value_ne_withheld :
    ∀ report ∈ (Findings.of r schema documents).reports, ∀ d ∈ report.diagnostics,
      d.value ≠ some withheld := by
  unfold Findings.of
  split
  · exact List.forall_mem_nil _
  · next f _ =>
    split
    · exact List.forall_mem_nil _
    · next b hb =>
      have hreports : (ofReports f.name (reportsAlone b.guard .standard (loadDocuments r documents).1)
          (loadDocuments r documents).2).reports =
            reportsAlone b.guard .standard (loadDocuments r documents).1 := by
        cases (loadDocuments r documents).2 <;> rfl
      rw [hreports, reportsAlone, List.forall_mem_map]
      exact fun d _ => DocumentReport.value_ne_withheld (SchemaFile.code_of_builder hb) d.1 d.2

/-- **Options and the environment choose how findings are shown, and not what is found.** Whichever of
its options a check is given, and whatever truth values the environment spells, the exit code, the
lines with the verdicts and the summary are those that the schema file and the documents determine.
If diagnostics are wanted, those of a document stand directly behind its verdict: none if they are
switched off, and otherwise of the kinds, schemas and targets, in the order, in which they are found.
A value among them is the placeholder exactly if the option or the environment asks for that. -/
theorem execute_check_presented
    (hargs : Arguments.parse args = .run ⟨verbosity, .check schema documents redact quiet⟩)
    (henv : Settings.ofEnvironment env = .ok settings) :
    let found := Findings.of r schema documents
    let shown := settings.redacted redact
    (execute args env r).code = found.code ∧
      (execute args env r).stdout = unlines (found.lines quiet shown) ∧
      ∀ report ∈ found.reports,
        (shown.enabled = false → (report.presented shown).diagnostics = []) ∧
        (shown.enabled = true → List.Forall₂ Diagnostic.SameOutline report.diagnostics
          (report.presented shown).diagnostics) ∧
        ∀ d ∈ (report.presented shown).diagnostics, ∀ text, d.value = some text →
          (text = withheld ↔ settings.redact = true ∨ redact = true) := by
  intro found shown
  have hrun : (execute args env r).code = found.code ∧
      (execute args env r).stdout = unlines (found.lines quiet shown) := by
    -- without a guard there is nothing to find; with one, the reports are shown
    cases hload : SchemaFile.load r schema with
    | error e =>
      have hfound : found = .nothing := by simp only [found, Findings.of, hload]
      have hfault : ∀ s, runCheck r schema documents redact quiet s =
          (some ⟨[], .error (.schema e)⟩, s) := by
        intro s
        simp only [runCheck, hload]
        rfl
      rw [hfound]
      exact execute_of_fault hargs hfault
    | ok f =>
      cases hb : f.builder with
      | error e =>
        have hfound : found = .nothing := by simp only [found, Findings.of, hload, hb]
        have hfault : ∀ s, runCheck r schema documents redact quiet s =
            (some ⟨[], .error (.guard schema e)⟩, s) := by
          intro s
          simp only [runCheck, hload, hb]
          rfl
        rw [hfound]
        exact execute_of_fault hargs hfault
      | ok b => exact execute_of_findings hargs henv hload hb
  refine ⟨hrun.1, hrun.2, fun report hreport => ?_⟩
  refine ⟨DocumentReport.diagnostics_presented_of_off, DocumentReport.sameOutline_presented, ?_⟩
  intro d hd text htext
  have hvalues := Findings.value_ne_withheld report hreport
  rw [DocumentReport.eq_withheld_iff hvalues hd htext]
  exact Bool.or_eq_true_iff

end

/-- Of two documents the second is rejected because of a text, which the environment withholds. Verdicts
alone, with diagnostics switched off and a more talkative log, are the same two and the same summary. -/
theorem execute_check_presented_withheld :
    let schemaText := "\x7b\"name\": \"T\", \"properties\": \x7b\"id\": \"number\"\x7d\x7d"
    let text := "\x7b\"id\": 1, \"note\": true\x7d"
    let text' := "\x7b\"id\": \"x\"\x7d"
    let r : Reader := FileTree.read (.ofPaths [("t.json", some schemaText.toUTF8),
      ("a.json", some text.toUTF8), ("b.json", some text'.toUTF8)])
    let args := ["check", "--schema", "t.json", "a.json", "b.json"]
    let env : Environment := [("GUARDKIT_REDACT_VALUES", " Yes ".toUTF8)]
    let args' := ["-vv", "check", "--quiet", "--schema", "t.json", "a.json", "b.json"]
    let env' : Environment := [("GUARDKIT_DIAGNOSTICS", "off".toUTF8)]
    let found := Findings.of r "t.json" ["a.json", "b.json"]
    Arguments.parse args = .run ⟨0, .check "t.json" ["a.json", "b.json"] false false⟩ ∧
      Settings.ofEnvironment env = .ok ⟨true, true⟩ ∧
      Arguments.parse args' = .run ⟨2, .check "t.json" ["a.json", "b.json"] false true⟩ ∧
      Settings.ofEnvironment env' = .ok ⟨false, false⟩ ∧
      (execute args env r).code = found.code ∧ (execute args' env' r).code = found.code ∧
      (execute args env r).stdout = unlines (found.lines false ⟨true, true⟩) ∧
      (execute args' env' r).stdout = unlines (found.lines true ⟨false, false⟩) ∧
      found.code = 1 ∧
      found.lines false ⟨true, true⟩ =
        ["PASS a.json", "  [T] no validator registered for property \"note\"",
          "FAIL b.json", "  [T] validation failed for property \"id\": [REDACTED]",
          "1 of 2 document(s) conform to T"] ∧
      found.lines true ⟨false, false⟩ =
        ["PASS a.json", "FAIL b.json", "1 of 2 document(s) conform to T"] := by
  intro schemaText text text' r args env args' env' found
  let tree : Json :=
    .object [("name", .string "T"), ("properties", .object [("id", .string "number")])]
  let f : SchemaFile := ⟨"T", none, none, [("id", .bare "number")]⟩
  let v : Value := .ofJson (.object [("id", .number (.integer 1)), ("note", .bool true)])
  let w : Value := .object [("id", .string "x")]
  have hargs : Arguments.parse args =
      .run ⟨0, .check "t.json" ["a.json", "b.json"] false false⟩ := by
    decide +kernel
  have hargs' : Arguments.parse args' =
      .run ⟨2, .check "t.json" ["a.json", "b.json"] false true⟩ := by
    decide +kernel
  have henv : Settings.ofEnvironment env = .ok ⟨true, true⟩ := by decide +kernel
  have henv' : Settings.ofEnvironment env' = .ok ⟨false, false⟩ := by decide +kernel
  obtain ⟨hcode, hstdout, -⟩ := execute_check_presented (r := r) hargs henv
  obtain ⟨hcode', hstdout', -⟩ := execute_check_presented (r := r) hargs' henv'
  have hload : SchemaFile.load r "t.json" = .ok f := by
    have htext : (r.text "t.json").toOption = some schemaText := by decide +kernel
    have hread : (Format.ofPath "t.json").read? schemaText = some tree := by
      simp only [schemaText]
      rfl
    have hf : SchemaFile.ofJson tree = .ok f := by
      simp [tree, SchemaFile.ofJson, SchemaParts.ofJson, SchemaParts.setField, SchemaParts.setName,
        SchemaParts.setProperties, SchemaParts.none, SchemaFile.property, PropertySpec.ofJson?,
        bind, Except.bind, pure, Except.pure, f]
    exact SchemaFile.load_of_text htext hread hf
  have hdocuments : loadDocuments r ["a.json", "b.json"] = ([("a.json", v), ("b.json", w)], none) := by
    have htext : (r.text "a.json").toOption = some text := by decide +kernel
    have hread : (Format.ofPath "a.json").read? text =
        some (.object [("id", .number (.integer 1)), ("note", .bool true)]) := by
      simp only [text]
      rfl
    have htext' : (r.text "b.json").toOption = some text' := by decide +kernel
    have hread' : (Format.ofPath "b.json").read? text' = some (.object [("id", .string "x")]) := by
      simp only [text']
      rfl
    simp only [loadDocuments, loadDocument_of_text htext hread, loadDocument_of_text htext' hread']
    rfl
  have hfound : ∀ b, f.builder = .ok b → found =
      .ofReports "T" (reportsAlone b.guard .standard [("a.json", v), ("b.json", w)]) none := by
    intro b hb
    simp only [found, Findings.of, hload, hb, hdocuments]
    rfl
  refine ⟨hargs, henv, hargs', henv', hcode, hcode', hstdout, hstdout', ?_, ?_, ?_⟩
  all_goals
    rw [hfound _ rfl]
    decide +kernel

end RecordGuard
