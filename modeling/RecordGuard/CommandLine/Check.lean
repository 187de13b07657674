import RecordGuard.Document.Load

/-!
# Checking documents

A document's report is its path, its verdict and the diagnostics that were sent while it was
classified. A run checks documents in order and stops at the first that cannot be loaded; what was
found until then is still reported.
-/

namespace RecordGuard

structure DocumentReport where
  path : String
  passed : Bool
  diagnostics : List Diagnostic

def checkDocument (r : Reader) (g : Guard) (path : String) :
    Run (Except DocumentFault DocumentReport) :=
  match loadDocument r path with
  | .error fault => return .error fault
  | .ok v => do
    let (passed, diagnostics) ← Run.capture (g.verdict v)
    Run.report (.documentChecked path passed)
    return .ok ⟨path, passed, diagnostics⟩

/-- Classify documents in order: their reports, and the fault that ended the run, if one did. -/
def checkDocuments (r : Reader) (g : Guard) :
    List String → Run (List DocumentReport × Option DocumentFault)
  | [] => return ([], none)
  | path :: rest => do
    match ← checkDocument r g path with
    | .error fault => return ([], some fault)
    | .ok report =>
      let (reports, fault) ← checkDocuments r g rest
      return (report :: reports, fault)

/-! ## Text -/

def DocumentReport.verdictLine (d : DocumentReport) : String :=
  (if d.passed then "PASS " else "FAIL ") ++ d.path

/-- The lines of a report: the verdict and, unless only verdicts are wanted, the diagnostics. -/
def DocumentReport.lines (quiet : Bool) (d : DocumentReport) : List String :=
  d.verdictLine :: if quiet then [] else d.diagnostics.map fun d => "  " ++ d.text

/-- The last line of a run in which every document was loaded. -/
def summaryLine (schema : String) (reports : List DocumentReport) : String :=
  Nat.repr (reports.countP (·.passed)) ++ " of " ++ Nat.repr reports.length ++
    " document(s) conform to " ++ schema

def unlines (lines : List String) : String := String.join (lines.map (· ++ "\n"))

end RecordGuard
