import RecordGuard.Document.Files
import RecordGuard.Json.Reader
import RecordGuard.Yaml.Reader

/-!
# Document formats

Documents and schema files are JSON or YAML. Which one a path holds is told by its extension: `yaml`
and `yml` mean YAML, everything else JSON.
-/

namespace RecordGuard

inductive Format where
  | json
  | yaml
deriving DecidableEq

namespace Format

def name : Format → String
  | json => "json"
  | yaml => "yaml"

/-- The part of a name behind its last dot. A dot in front of the name does not count. -/
def extension? (name : String) : Option String :=
  let behind := name.toList.reverse.takeWhile (· ≠ '.')
  if name.length ≤ behind.length + 1 then none else some (String.ofList behind.reverse)

def ofPath (path : String) : Format :=
  match (pathNames path).getLast?.filter (· ≠ "..") |>.bind extension? with
  | some "yaml" | some "yml" => yaml
  | _ => json

def read? (format : Format) (content : String) : Option Json :=
  match format with
  | json => Json.ofText? content.toList
  | yaml => Yaml.ofText? content.toList

def fault : Format → String
  | json => "invalid JSON"
  | yaml => "invalid YAML"

end Format

end RecordGuard
