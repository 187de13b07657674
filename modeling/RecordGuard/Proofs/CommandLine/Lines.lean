import RecordGuard.Proofs.CommandLine.Run
import RecordGuard.Proofs.Value.Shown

/-!
# Lines of a report

What a check puts out is written line by line, and read line by line. The two agree as long as
nothing that is written into a line breaks it.

* **`textLines`**, **`textLines_unlines_iff`** — lines that are put out come back if none of them
  is broken, and only then.
* **`SchemaFile.Says.newline_mem_iff`** — the diagnostics of a file are broken by the names of
  properties alone.
* **`execute_check_lines`** — the headline.
-/

namespace RecordGuard

/-! ## Lines of a text -/

/-- The lines of a text of which every line ends with a line break. -/
def textLines (text : String) : List String :=
  ((text.toList.splitOn '\n').dropLast).map String.ofList

theorem toList_unlines_cons (line : String) (rest : List String) :
    (unlines (line :: rest)).toList = line.toList ++ '\n' :: (unlines rest).toList := by
  simp [unlines, String.join_cons]

/-- **Unbroken lines come back.** -/
theorem textLines_unlines {lines : List String} (h : ∀ line ∈ lines, '\n' ∉ line.toList) :
    textLines (unlines lines) = lines := by
  induction lines with
  | nil => rfl
  | cons line rest ih =>
    rw [List.forall_mem_cons] at h
    have hrest : textLines (unlines rest) = rest := ih h.2
    -- the first break that is found is the one behind the first line
    rw [textLines, toList_unlines_cons, List.splitOn_append_cons_self_of_not_mem h.1,
      List.dropLast_cons_of_ne_nil (List.splitOn_ne_nil _ _), List.map_cons, String.ofList_toList]
    exact congrArg (line :: ·) hrest

/-- What a text is split into has no line break. -/
theorem newline_not_mem_of_mem_splitOn (cs : List Char) :
    ∀ line ∈ cs.splitOn '\n', '\n' ∉ line := by
  induction cs with
  | nil => simp
  | cons c rest ih =>
    obtain ⟨first, later, hrest⟩ := List.exists_cons_of_ne_nil (List.splitOn_ne_nil '\n' rest)
    rw [hrest, List.forall_mem_cons] at ih
    rw [List.splitOn_cons_eq_if_modifyHead, hrest]
    split
    · exact List.forall_mem_cons.mpr ⟨List.not_mem_nil, List.forall_mem_cons.mpr ih⟩
    · next hc =>
      -- the character belongs to the first line of the rest
      have hfirst : '\n' ∉ c :: first := by
        rw [List.mem_cons, not_or]
        exact ⟨fun h => hc (beq_iff_eq.mpr h.symm), ih.1⟩
      exact List.forall_mem_cons.mpr ⟨hfirst, ih.2⟩

/-- **Lines come back exactly if none of them is broken.** -/
theorem textLines_unlines_iff (lines : List String) :
    textLines (unlines lines) = lines ↔ ∀ line ∈ lines, '\n' ∉ line.toList := by
  refine ⟨fun h line hline => ?_, textLines_unlines⟩
  rw [← h, textLines] at hline
  obtain ⟨cs, hcs, rfl⟩ := List.mem_map.mp hline
  rw [String.toList_ofList]
  exact newline_not_mem_of_mem_splitOn _ cs (List.dropLast_subset _ hcs)

/-! ## Lines of diagnostics -/

/-- **The text of a value is on one line**, since all of its characters show. -/
theorem Value.newline_not_mem_text (v : Value) : '\n' ∉ v.text.toList := by
  rw [Value.text, String.toList_ofList]
  exact v.shown_chars.newline_not_mem

/-- The value that a rejection shows is on one line, withheld or not. -/
theorem Diagnostic.failed_eq (settings : Settings) (schema : String) (target : Target) (x : Value) :
    ∃ text, '\n' ∉ text.toList ∧
      failed settings schema target x = ⟨.validationFailed, some schema, target, some text⟩ := by
  refine ⟨_, ?_, rfl⟩
  split
  · decide
  · exact x.newline_not_mem_text

/-- **What the guard of a file says is broken by the name of a property alone.** -/
theorem SchemaFile.Says.newline_mem_iff {f : SchemaFile} {v : Value} {d : Diagnostic}
    (h : f.Says v d) (hname : '\n' ∉ f.name.toList) :
    '\n' ∈ d.text.toList ↔ ∃ key, d.target = .property key ∧ '\n' ∈ key.toList := by
  -- the sentences of a diagnostic have no line break; what is put into them is looked at in turn
  cases h with
  | member => simp [Diagnostic.memberFailed, Diagnostic.text, Diagnostic.body, Target.text]
  | missing hkey =>
    simp [Diagnostic.missing, Diagnostic.text, Diagnostic.body, Target.text, hname]
  | root settings x =>
    obtain ⟨text, htext, hfailed⟩ := Diagnostic.failed_eq settings f.name .root x
    rw [hfailed]
    simp [Diagnostic.text, Diagnostic.body, Target.text, hname, htext]
  | property hkey settings x =>
    obtain ⟨text, htext, hfailed⟩ := Diagnostic.failed_eq settings f.name (.property _) x
    rw [hfailed]
    simp [Diagnostic.text, Diagnostic.body, hname, htext]

/-- A diagnostic about a property is about an own key of the candidate. -/
theorem SchemaFile.Says.mem_ownKeys {f : SchemaFile} {v : Value} {d : Diagnostic} {key : String}
    (h : f.Says v d) (htarget : d.target = .property key) : key ∈ v.ownKeys := by
  cases h with
  | member => cases htarget
  | missing hkey =>
    cases htarget
    exact hkey
  | root settings x => cases htarget
  | property hkey settings x =>
    cases htarget
    exact hkey

/-- What a report on a document holds is said by the guard of the file. -/
theorem says_alone {f : SchemaFile} {b : Builder} (hb : f.builder = .ok b) (settings : Settings)
    (path : String) (v : Value) :
    ∀ d ∈ (DocumentReport.alone b.guard settings path v).diagnostics, f.Says v d := by
  have hcapture := (DocumentReport.alone_eq (SchemaFile.code_of_builder hb) settings path v).2
    (Session.start settings) rfl
  -- what the report holds is what the capture collects, and that is what is sent
  have hcollects := (b.guard.check v).traced.collects (Session.start settings)
  rw [show Run.capture (b.guard.check v).run _ = _ from hcapture] at hcollects
  obtain ⟨verdict, -, hds⟩ := Option.map_eq_some_iff.mp (congrArg Prod.fst hcollects).symm
  obtain ⟨-, hsent⟩ := Prod.mk.inj hds
  intro d hd
  rw [← hsent] at hd
  exact SchemaFile.says_of_builder hb v _ d (mem_emitted_of_mem_sent hd)

/-! ## Lines of a run -/

/-- Whether a line reads as a verdict. -/
def isVerdictLine (line : String) : Bool :=
  "PASS ".toList.isPrefixOf line.toList || "FAIL ".toList.isPrefixOf line.toList

theorem isVerdictLine_verdictLine (d : DocumentReport) : isVerdictLine d.verdictLine = true := by
  unfold DocumentReport.verdictLine
  cases d.passed <;> simp [isVerdictLine]

theorem isVerdictLine_of_head {line : String} {c : Char} {cs : List Char}
    (hline : line.toList = c :: cs) (hpass : c ≠ 'P') (hfail : c ≠ 'F') :
    isVerdictLine line = false := by
  rw [isVerdictLine, hline]
  simp [List.isPrefixOf, hpass.symm, hfail.symm]

/-- The summary does not read as a line with a verdict. -/
theorem isVerdictLine_summaryLine (name : String) (reports : List DocumentReport) :
    isVerdictLine (summaryLine name reports) = false := by
  have hdigits : ∀ c ∈ Nat.toDigits 10 (reports.countP (·.passed)), c.isDigit = true :=
    fun c hc => Nat.isDigit_of_mem_toDigits (by decide) (by decide) hc
  -- the line begins with a digit
  cases hrepr : Nat.toDigits 10 (reports.countP (·.passed)) with
  | nil => exact absurd hrepr Nat.toDigits_ne_nil
  | cons c cs =>
    have hc : c.isDigit = true := hdigits c (by rw [hrepr]; exact List.mem_cons_self)
    have hline : ∃ rest, (summaryLine name reports).toList = c :: rest := by
      simp [summaryLine, String.toList_append, Nat.toList_repr, hrepr]
    obtain ⟨rest, hrest⟩ := hline
    refine isVerdictLine_of_head hrest ?_ ?_
    · rintro rfl
      exact absurd hc (by decide)
    · rintro rfl
      exact absurd hc (by decide)

/-- **Of the lines on a document one reads as a verdict.** -/
theorem filter_isVerdictLine_lines (quiet : Bool) (d : DocumentReport) :
    (d.lines quiet).filter isVerdictLine = [d.verdictLine] := by
  have hdiagnostics : ∀ ds : List Diagnostic,
      (ds.map fun d => "  " ++ d.text).filter isVerdictLine = [] := by
    intro ds
    rw [List.filter_eq_nil_iff]
    rintro _ hline
    obtain ⟨d, -, rfl⟩ := List.mem_map.mp hline
    -- a blank is in front of a diagnostic
    have hhead : ("  " ++ d.text).toList = ' ' :: ' ' :: d.text.toList := String.toList_append
    simp [isVerdictLine_of_head hhead]
  rw [DocumentReport.lines, List.filter_cons_of_pos (isVerdictLine_verdictLine d)]
  cases quiet with
  | true => rfl
  | false => exact congrArg (d.verdictLine :: ·) (hdiagnostics d.diagnostics)

/-- So the lines of a run that read as verdicts are those of its documents, in order. -/
theorem filter_isVerdictLine (quiet : Bool) (name : String) (reports : List DocumentReport) :
    (reports.flatMap (·.lines quiet) ++ [summaryLine name reports]).filter isVerdictLine =
      reports.map (·.verdictLine) := by
  rw [List.filter_append, List.filter_flatMap,
    List.filter_cons_of_neg (by simp [isVerdictLine_summaryLine]), List.filter_nil,
    List.append_nil]
  simp only [filter_isVerdictLine_lines]
  exact List.flatMap_pure_eq_map _ _

/-- The lines that a check means to put out for documents that are all loaded. -/
def linesAlone (g : Guard) (settings : Settings) (quiet : Bool) (name : String)
    (loaded : List (String × Value)) : List String :=
  (reportsAlone g settings loaded).flatMap (·.lines quiet) ++
    [summaryLine name (reportsAlone g settings loaded)]

theorem newline_not_mem_verdictLine {d : DocumentReport} (hpath : '\n' ∉ d.path.toList) :
    '\n' ∉ d.verdictLine.toList := by
  unfold DocumentReport.verdictLine
  cases d.passed <;> simp [hpath]

/-- The summary is broken by the name of the schema alone. -/
theorem newline_not_mem_summaryLine {name : String} (hname : '\n' ∉ name.toList)
    (reports : List DocumentReport) : '\n' ∉ (summaryLine name reports).toList := by
  have hdigits : ∀ n, '\n' ∉ Nat.toDigits 10 n :=
    fun n => (shown_toDigits (by decide) (by decide) n).newline_not_mem
  simp [summaryLine, Nat.toList_repr, hdigits, hname]

/-- Whether no diagnostic of a report that is written out names a property with a line break. -/
def DocumentReport.NamesUnbroken (d : DocumentReport) : Prop :=
  ∀ diagnostic ∈ d.diagnostics, ∀ key, diagnostic.target = .property key → '\n' ∉ key.toList

/-- The lines of a report on a document are unbroken if the names in it are. -/
theorem unbroken_lines_iff {f : SchemaFile} {b : Builder} (hb : f.builder = .ok b)
    (hname : '\n' ∉ f.name.toList) (settings : Settings) (quiet : Bool) {path : String}
    (hpath : '\n' ∉ path.toList) (v : Value) :
    (∀ line ∈ (DocumentReport.alone b.guard settings path v).lines quiet, '\n' ∉ line.toList) ↔
      quiet = true ∨ (DocumentReport.alone b.guard settings path v).NamesUnbroken := by
  have hverdict : '\n' ∉ (DocumentReport.alone b.guard settings path v).verdictLine.toList :=
    newline_not_mem_verdictLine hpath
  rw [DocumentReport.lines, List.forall_mem_cons]
  cases quiet with
  | true => simp [hverdict]
  | false =>
    have hsaid := says_alone hb settings path v
    simp only [hverdict, not_false_eq_true, true_and, Bool.false_eq_true, false_or, if_false,
      List.forall_mem_map]
    -- diagnostic by diagnostic; the blanks in front of it are no line break
    refine forall₂_congr fun d hd => ?_
    have hbroken := (hsaid d hd).newline_mem_iff hname
    simp only [String.toList_append, List.mem_append, hbroken]
    simp

theorem loaded_unique {r : Reader} :
    ∀ {loaded others : List (String × Value)}, loaded.map (·.1) = others.map (·.1) →
      (∀ d ∈ loaded, loadDocument r d.1 = .ok d.2) →
      (∀ d ∈ others, loadDocument r d.1 = .ok d.2) → loaded = others
  | [], [], _, _, _ => rfl
  | (path, v) :: rest, (path', v') :: rest', hpaths, hloaded, hothers => by
    rw [List.map_cons, List.map_cons, List.cons.injEq] at hpaths
    rw [List.forall_mem_cons] at hloaded hothers
    obtain rfl : path = path' := hpaths.1
    have hv : v = v' := Except.ok.inj (hloaded.1.symm.trans hothers.1)
    rw [hv, loaded_unique hpaths.2 hloaded.2 hothers.2]

/-! ## Files at hand -/

/-- The text of a file, where there is one. -/
theorem Reader.text_of_toOption {r : Reader} {path content : String}
    (htext : (r.text path).toOption = some content) : r.text path = .ok content := by
  cases h : r.text path with
  | error fault => simp [h, Except.toOption] at htext
  | ok other =>
    rw [h] at htext
    exact congrArg Except.ok (Option.some.inj htext)

theorem loadDocument_of_text {r : Reader} {path content : String} {j : Json}
    (htext : (r.text path).toOption = some content)
    (hread : (Format.ofPath path).read? content = some j) :
    loadDocument r path = .ok (.ofJson j) := by
  simp only [loadDocument, Reader.text_of_toOption htext, hread]

theorem SchemaFile.load_of_text {r : Reader} {path content : String} {j : Json} {f : SchemaFile}
    (htext : (r.text path).toOption = some content)
    (hread : (Format.ofPath path).read? content = some j) (hf : SchemaFile.ofJson j = .ok f) :
    SchemaFile.load r path = .ok f := by
  simp only [SchemaFile.load, SchemaFile.parse, Reader.text_of_toOption htext, hread, hf]

/-! ## The headline -/

section

variable {args : List String} {env : Environment} {r : Reader} {verbosity : Nat} {schema : String}
  {documents : List String} {redact quiet : Bool} {settings : Settings} {f : SchemaFile}
  {b : Builder} {loaded : List (String × Value)}

/-- **What is put out where every document is loaded.** -/
theorem stdout_of_loaded
    (hargs : Arguments.parse args = .run ⟨verbosity, .check schema documents redact quiet⟩)
    (henv : Settings.ofEnvironment env = .ok settings)
    (hload : SchemaFile.load r schema = .ok f) (hb : f.builder = .ok b)
    (hdocuments : documents = loaded.map (·.1))
    (hloaded : ∀ d ∈ loaded, loadDocument r d.1 = .ok d.2) :
    (execute args env r).stdout =
      unlines (linesAlone b.guard (settings.redacted redact) quiet f.name loaded) := by
  obtain ⟨others, fault, hothers, hfrom, hstdout, -⟩ := execute_of_builder hargs henv hload hb
  cases hfrom with
  | all hdocuments' =>
    rw [hdocuments] at hdocuments'
    rw [hstdout, ← loaded_unique hdocuments' hloaded hothers]
    rfl
  | stopped hdocuments' hfault =>
    -- a document that cannot be loaded is none of those that are
    rename_i path rest fault
    have hpath : path ∈ loaded.map (·.1) := by
      rw [← hdocuments, hdocuments']
      exact List.mem_append_right _ List.mem_cons_self
    obtain ⟨d, hd, rfl⟩ := List.mem_map.mp hpath
    rw [hloaded d hd] at hfault
    cases hfault

/-- **The lines of a report.** Let every document be loaded, and let no line break stand in the name of
the schema or in a path. Then the lines that are put out are, for every document in order, its path
behind its verdict and its diagnostics, each indented and on a line of its own, and the summary: if
diagnostics are left out, or no diagnostic names a property with a line break, and only then.

The values in a document never matter to that, nor do keys further inside, and its own keys do only
where a line break stands in one. If there is none, the lines that read as verdicts are the verdicts
of the guard on the documents. -/
theorem execute_check_lines
    (hargs : Arguments.parse args = .run ⟨verbosity, .check schema documents redact quiet⟩)
    (henv : Settings.ofEnvironment env = .ok settings)
    (hload : SchemaFile.load r schema = .ok f) (hb : f.builder = .ok b)
    (hdocuments : documents = loaded.map (·.1))
    (hloaded : ∀ d ∈ loaded, loadDocument r d.1 = .ok d.2)
    (hname : '\n' ∉ f.name.toList) (hpaths : ∀ path ∈ documents, '\n' ∉ path.toList) :
    let g := b.guard
    let shown := settings.redacted redact
    (∀ d ∈ loaded, ∀ s,
      (g.verdict d.2 s).1 = some (DocumentReport.alone g shown d.1 d.2).passed) ∧
    (textLines (execute args env r).stdout = linesAlone g shown quiet f.name loaded ↔
      quiet = true ∨ ∀ report ∈ reportsAlone g shown loaded, report.NamesUnbroken) ∧
    (quiet = true ∨ (∀ d ∈ loaded, ∀ key ∈ d.2.ownKeys, '\n' ∉ key.toList) →
      textLines (execute args env r).stdout = linesAlone g shown quiet f.name loaded ∧
      (textLines (execute args env r).stdout).filter isVerdictLine =
        (reportsAlone g shown loaded).map (·.verdictLine)) := by
  intro g shown
  -- the lines come back if each is unbroken; only those of the diagnostics are not known to be
  have hlines : textLines (execute args env r).stdout = linesAlone g shown quiet f.name loaded ↔
      quiet = true ∨ ∀ report ∈ reportsAlone g shown loaded, report.NamesUnbroken := by
    -- document by document, the lines on it are unbroken if its names are
    have hreports : (∀ d ∈ loaded, ∀ line ∈ (DocumentReport.alone g shown d.1 d.2).lines quiet,
          '\n' ∉ line.toList) ↔
        ∀ d ∈ loaded, quiet = true ∨ (DocumentReport.alone g shown d.1 d.2).NamesUnbroken := by
      refine forall₂_congr fun d hd => unbroken_lines_iff hb hname shown quiet (hpaths d.1 ?_) d.2
      rw [hdocuments]
      exact List.mem_map.mpr ⟨d, hd, rfl⟩
    rw [stdout_of_loaded hargs henv hload hb hdocuments hloaded, textLines_unlines_iff, linesAlone,
      List.forall_mem_append, List.forall_mem_singleton, reportsAlone, List.forall_mem_flatMap,
      List.forall_mem_map, List.forall_mem_map, hreports]
    simp only [newline_not_mem_summaryLine hname, not_false_eq_true, and_true]
    cases quiet <;> simp [g, shown]
  refine ⟨fun d _ => ?_, hlines, fun hkeys => ?_⟩
  · exact (DocumentReport.alone_eq (SchemaFile.code_of_builder hb) shown d.1 d.2).1
  · have hread := hlines.mpr (hkeys.imp id fun hkeys report hreport d hd key htarget => by
      obtain ⟨document, hdocument, rfl⟩ := List.mem_map.mp hreport
      exact hkeys document hdocument key
        ((says_alone hb shown document.1 document.2 d hd).mem_ownKeys htarget))
    refine ⟨hread, ?_⟩
    rw [hread]
    exact filter_isVerdictLine quiet f.name (reportsAlone g shown loaded)

end

/-- A value that is rejected has line breaks in a text and in a key inside it. -/
theorem execute_check_lines_nested :
    let schemaText := "\x7b\"name\": \"T\", \"properties\": \x7b\"a\": \"number\"\x7d\x7d"
    let text := "\x7b\"a\": \x7b\"\\nPASS d.json\": \"\\nPASS d.json\"\x7d\x7d"
    let args := ["check", "--schema", "t.json", "d.json"]
    let r : Reader := FileTree.read (.ofPaths
      [("t.json", some schemaText.toUTF8), ("d.json", some text.toUTF8)])
    Arguments.parse args = .run ⟨0, .check "t.json" ["d.json"] false false⟩ ∧
      textLines (execute args [] r).stdout =
        ["FAIL d.json",
          "  [T] validation failed for property \"a\": " ++
            "\x7b\"\\nPASS d.json\": \"\\nPASS d.json\"\x7d",
          "0 of 1 document(s) conform to T"] := by
  intro schemaText text args r
  let f : SchemaFile := ⟨"T", none, none, [("a", .bare "number")]⟩
  let v : Value := .object [("a", .object [("\nPASS d.json", .string "\nPASS d.json")])]
  have hargs : Arguments.parse args = .run ⟨0, .check "t.json" ["d.json"] false false⟩ := by
    decide +kernel
  have hload : SchemaFile.load r "t.json" = .ok f := by
    have htext : (r.text "t.json").toOption = some schemaText := by decide +kernel
    have hread : (Format.ofPath "t.json").read? schemaText =
        some (.object [("name", .string "T"), ("properties", .object [("a", .string "number")])]) := by
      simp only [schemaText]
      rfl
    refine SchemaFile.load_of_text htext hread ?_
    simp [SchemaFile.ofJson, SchemaParts.ofJson, SchemaParts.setField, SchemaParts.setName,
      SchemaParts.setProperties, SchemaParts.none, SchemaFile.property, PropertySpec.ofJson?, bind,
      Except.bind, pure, Except.pure, f]
  have hdocument : loadDocument r "d.json" = .ok v := by
    have htext : (r.text "d.json").toOption = some text := by decide +kernel
    have hread : (Format.ofPath "d.json").read? text =
        some (.object [("a", .object [("\nPASS d.json", .string "\nPASS d.json")])]) := by
      simp only [text]
      rfl
    exact loadDocument_of_text htext hread
  have hloaded : ∀ d ∈ [("d.json", v)], loadDocument r d.1 = .ok d.2 :=
    List.forall_mem_singleton.mpr hdocument
  have henv : Settings.ofEnvironment [] = .ok .standard := rfl
  have hb : f.builder = .ok _ := rfl
  obtain ⟨-, -, hlines⟩ :=
    execute_check_lines hargs henv hload hb rfl hloaded (by decide) (by decide)
  refine ⟨hargs, (hlines (.inr (by decide))).1.trans ?_⟩
  decide +kernel

/-- A key with a line break forges a verdict: a document that is not there is reported on. -/
theorem execute_check_lines_forged :
    let schemaText := "\x7b\"name\": \"T\", \"properties\": \x7b\x7d\x7d"
    let text := "\x7b\"a\\nPASS forged.json\\n\": 1\x7d"
    let args := ["check", "--schema", "t.json", "d.json"]
    let r : Reader := FileTree.read (.ofPaths
      [("t.json", some schemaText.toUTF8), ("d.json", some text.toUTF8)])
    Arguments.parse args = .run ⟨0, .check "t.json" ["d.json"] false false⟩ ∧
      textLines (execute args [] r).stdout =
        ["PASS d.json", "  [T] no validator registered for property \"a", "PASS forged.json", "\"",
          "1 of 1 document(s) conform to T"] ∧
      ∃ f b v, SchemaFile.load r "t.json" = .ok f ∧ f.builder = .ok b ∧
        loadDocument r "d.json" = .ok v ∧ '\n' ∉ f.name.toList ∧
        textLines (execute args [] r).stdout ≠
          linesAlone b.guard .standard false f.name [("d.json", v)] := by
  intro schemaText text args r
  have hlines : textLines (execute args [] r).stdout =
      ["PASS d.json", "  [T] no validator registered for property \"a", "PASS forged.json", "\"",
        "1 of 1 document(s) conform to T"] := by
    decide +kernel
  have hload : SchemaFile.load r "t.json" = .ok ⟨"T", none, none, []⟩ := by
    have htext : (r.text "t.json").toOption = some schemaText := by decide +kernel
    have hread : (Format.ofPath "t.json").read? schemaText =
        some (.object [("name", .string "T"), ("properties", .object [])]) := by
      simp only [schemaText]
      rfl
    exact SchemaFile.load_of_text htext hread rfl
  have hdocument : loadDocument r "d.json" =
      .ok (.ofJson (.object [("a\nPASS forged.json\n", .number (.integer 1))])) := by
    have htext : (r.text "d.json").toOption = some text := by decide +kernel
    have hread : (Format.ofPath "d.json").read? text =
        some (.object [("a\nPASS forged.json\n", .number (.integer 1))]) := by
      simp only [text]
      rfl
    exact loadDocument_of_text htext hread
  refine ⟨by decide +kernel, hlines, _, _, _, hload, rfl, hdocument, by decide, fun h => ?_⟩
  -- two lines read as verdicts, and there is one document
  have hverdicts := congrArg (List.filter isVerdictLine) (hlines.symm.trans h)
  rw [linesAlone, filter_isVerdictLine] at hverdicts
  exact absurd (congrArg List.length hverdicts) (by decide)

end RecordGuard
