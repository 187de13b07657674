import RecordGuard.Document.Format
import RecordGuard.Schema.Decode
import RecordGuard.Schema.Resolve

/-!
# Loading documents and schema files

A path is read, its text parsed in the format of the path, and the tree taken as a value or as a
schema file. The faults say which of these steps failed.
-/

namespace RecordGuard

/-! ## Documents -/

inductive DocumentFault where
  | unreadable (path : String) (fault : ReadFault)
  | malformed (path : String) (format : Format)

namespace DocumentFault

def context : DocumentFault → String
  | unreadable path _ => "cannot read document " ++ path
  | malformed path _ => "cannot parse document " ++ path

def cause : DocumentFault → String
  | unreadable _ fault => fault.message
  | malformed _ format => format.fault

def message (e : DocumentFault) : String := e.context ++ ": " ++ e.cause

end DocumentFault

def loadDocument (r : Reader) (path : String) : Except DocumentFault Value :=
  match r.text path with
  | .error fault => .error (.unreadable path fault)
  | .ok content =>
    let format := Format.ofPath path
    match format.read? content with
    | some j => .ok (Value.ofJson j)
    | none => .error (.malformed path format)

/-! ## Schema files -/

inductive SchemaFault where
  | unreadable (path : String) (fault : ReadFault)
  | malformed (origin : String) (format : Format)
  | shape (origin : String) (fault : ShapeFault)
  | spec (fault : SpecFault)

namespace SchemaFault

def message : SchemaFault → String
  | unreadable path fault => "cannot read schema file '" ++ path ++ "': " ++ fault.message
  | malformed origin format => "invalid schema file '" ++ origin ++ "': " ++ format.fault
  | shape origin fault => "invalid schema file '" ++ origin ++ "': " ++ fault.message
  | spec fault => fault.message

/-- The message followed by the causes behind it. -/
def report (e : SchemaFault) : String :=
  match e with
  | unreadable _ fault => e.message ++ ": " ++ fault.message
  | _ => e.message

end SchemaFault

namespace SchemaFile

/-- The schema file that a text writes; `origin` names the text in faults. -/
def parse (content : String) (format : Format) (origin : String) : Except SchemaFault SchemaFile :=
  match format.read? content with
  | none => .error (.malformed origin format)
  | some j =>
    match SchemaFile.ofJson j with
    | .ok f => .ok f
    | .error fault => .error (.shape origin fault)

def load (r : Reader) (path : String) : Except SchemaFault SchemaFile :=
  match r.text path with
  | .error fault => .error (.unreadable path fault)
  | .ok content => parse content (Format.ofPath path) path

end SchemaFile

end RecordGuard
