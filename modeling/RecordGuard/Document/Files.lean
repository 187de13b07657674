import RecordGuard.Value.Fields

/-!
# Files

What reading a path comes to: bytes, or one of a few faults. Everything that needs files takes a
`Reader`, the answer for every path; `FileTree.read` is the reader of a directory that is given as
data.
-/

namespace RecordGuard

inductive ReadFault where
  | notFound
  | notDirectory
  | isDirectory
  /-- A name on the path, or the path itself, is longer than a system allows. -/
  | nameTooLong
  | zeroInPath
  | notText
  /-- Anything else, in the words of the system. -/
  | other (message : String)
deriving DecidableEq

def ReadFault.message : ReadFault → String
  | notFound => "No such file or directory (os error 2)"
  | notDirectory => "Not a directory (os error 20)"
  | isDirectory => "Is a directory (os error 21)"
  | nameTooLong => "File name too long (os error 36)"
  | zeroInPath => "file name contained an unexpected NUL byte"
  | notText => "stream did not contain valid UTF-8"
  | other message => message

abbrev Reader := String → Except ReadFault ByteArray

def Reader.text (r : Reader) (path : String) : Except ReadFault String :=
  match r path with
  | .error e => .error e
  | .ok bytes =>
    match String.fromUTF8? bytes with
    | some s => .ok s
    | none => .error .notText

/-! ## Directories as data -/

/-- The names that a path goes through, without empty ones and those that stay where they are. -/
def pathNames (path : String) : List String :=
  ((path.toList.splitOn '/').map String.ofList).filter fun name => name ≠ "" ∧ name ≠ "."

/-- Entries of a directory tree by their names from the top; an entry without bytes is a directory.
The directories on the way to an entry exist with it. -/
abbrev FileTree := List (List String × Option ByteArray)

inductive FileNode where
  | directory
  | file (bytes : ByteArray)

namespace FileTree

def ofPaths (entries : List (String × Option ByteArray)) : FileTree :=
  (entries.map fun (path, bytes) => (pathNames path, bytes)).reverse

def node? (t : FileTree) (place : List String) : Option FileNode :=
  match t.find? (·.1 = place) with
  | some (_, some bytes) => some (.file bytes)
  | some (_, none) => some .directory
  | none =>
    if t.any (fun entry => place.isPrefixOf entry.1) || place.isEmpty then some .directory else none

def maxNameBytes : Nat := 255

def maxPathBytes : Nat := 4095

/-- Follow names from a directory. Beyond the top of the tree there are only directories without
further entries; `above` counts how far beyond it the walk is, at least. -/
def walk (t : FileTree) (place : List String) (above : Nat) :
    List String → Except ReadFault FileNode
  | [] =>
    if above = 0 then
      match t.node? place with
      | some node => .ok node
      | none => .error .notFound
    else .ok .directory
  | ".." :: rest =>
    if above = 0 then
      match t.node? place with
      | some .directory =>
        if place.isEmpty then walk t place 1 rest else walk t place.dropLast 0 rest
      | some (.file _) => .error .notDirectory
      | none => .error .notFound
    else walk t place (above + 1) rest
  | name :: rest =>
    let tooLong := decide (maxNameBytes < name.utf8ByteSize)
    if above = 0 then
      match t.node? place with
      | some .directory =>
        if tooLong then .error .nameTooLong else walk t (place ++ [name]) 0 rest
      | some (.file _) => .error .notDirectory
      | none => .error .notFound
    else .error (if tooLong then .nameTooLong else .notFound)

/-- The reader of a tree. A path that begins with a slash begins beyond the tree; one that ends in a
slash, or in a dot behind one, means a directory. -/
def read (t : FileTree) : Reader := fun path =>
  let wantsDirectory := path.endsWith "/" || path.endsWith "/."
  let above := if path.startsWith "/" then 1 else 0
  if path.toList.contains '\x00' then .error .zeroInPath
  else if path.isEmpty then .error .notFound
  else if maxPathBytes < path.utf8ByteSize then .error .nameTooLong
  else
    match t.walk [] above (pathNames path) with
    | .error e => .error e
    | .ok .directory => .error .isDirectory
    | .ok (.file bytes) => if wantsDirectory then .error .notDirectory else .ok bytes

end FileTree

end RecordGuard
