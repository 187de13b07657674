import RecordGuard.Value.Fields
import RecordGuard.Yaml.Layout

/-!
# Nodes of YAML

The tree of a YAML document before its scalars are read as anything: scalars, sequences and mappings
with their anchors and tags, and references to anchored nodes, called aliases. A stream of tokens
holds one document at most.

Anchors are numbered. A new name takes the number of names known before it, and so does a name that
is given again; an alias means the number that its name has at that place. Numbers may therefore
coincide, and the last node that took a number is the one it stands for.
-/

namespace RecordGuard.Yaml

inductive Node where
  /-- The node with this anchor number. -/
  | reference (anchor : Nat)
  | scalar (anchor : Option Nat) (tag : Option TagText) (text : List Char) (plain : Bool)
  | sequence (anchor : Option Nat) (tag : Option TagText) (items : List Node)
  | mapping (anchor : Option Nat) (tag : Option TagText) (entries : List (Node × Node))
deriving Inhabited

namespace Node

/-- The node that stands where none is written. -/
def empty : Node := scalar none none [] true

end Node

/-- Tokens to come, and the anchor names known so far with their numbers. -/
structure Stream where
  tokens : List Token
  names : Fields Nat

namespace Stream

/-- What tag handles stand for. -/
abbrev Handles := List (List Char × TagText)

/-- Whether the next token is one of these. -/
def startsWith (s : Stream) (ts : List Token) : Bool := s.tokens.head?.any ts.contains

def drop (s : Stream) : Stream := { s with tokens := s.tokens.drop 1 }

structure Properties where
  anchor : Option Nat
  tag : Option TagText

def declare (s : Stream) (name : List Char) : Nat × Stream :=
  (s.names.length, { s with names := s.names.insert (String.ofList name) s.names.length })

/-- A tag in full. A tag without a handle is in full already. -/
def fullTag? (handles : Handles) (handle : List Char) (suffix : TagText) : Option TagText :=
  if handle.isEmpty then some suffix
  else (handles.find? (·.1 = handle)).map fun (_, expansion) => expansion ++ suffix

/-- The anchor and the tag in front of a node, in either order. -/
def properties? (handles : Handles) (s : Stream) : Option (Properties × Stream) :=
  match s.tokens with
  | .anchor name :: .tag handle suffix :: rest => do
    let tag ← fullTag? handles handle suffix
    let (anchor, s) := { s with tokens := rest }.declare name
    return (⟨some anchor, some tag⟩, s)
  | .tag handle suffix :: .anchor name :: rest => do
    let tag ← fullTag? handles handle suffix
    let (anchor, s) := { s with tokens := rest }.declare name
    return (⟨some anchor, some tag⟩, s)
  | .anchor name :: rest =>
    let (anchor, s) := { s with tokens := rest }.declare name
    some (⟨some anchor, none⟩, s)
  | .tag handle suffix :: rest => do
    let tag ← fullTag? handles handle suffix
    return (⟨none, some tag⟩, { s with tokens := rest })
  | _ => some (⟨none, none⟩, s)

mutual

/-- A node. Block collections are only taken where `block` says so, and a sequence of entries that
no deeper column set off where `indentless` does. -/
def node? (handles : Handles) (block indentless : Bool) : Nat → Stream → Option (Node × Stream)
  | 0, _ => none
  | fuel + 1, s =>
    match s.tokens with
    | .reference name :: rest =>
      (s.names.get? (String.ofList name)).map fun n => (.reference n, { s with tokens := rest })
    | _ => do
      let (p, s) ← properties? handles s
      match s.tokens with
      | .scalar text plain :: rest =>
        return (.scalar p.anchor p.tag text plain, { s with tokens := rest })
      | .flowSequenceStart :: rest =>
        let (items, s) ← flowItems? handles true fuel { s with tokens := rest }
        return (.sequence p.anchor p.tag items, s)
      | .flowMappingStart :: rest =>
        let (entries, s) ← flowEntries? handles true fuel { s with tokens := rest }
        return (.mapping p.anchor p.tag entries, s)
      | t :: rest =>
        if indentless && t = .blockEntry then
          let (items, s) ← blockItems? handles false fuel s
          return (.sequence p.anchor p.tag items, s)
        else if block && t = .blockSequenceStart then
          let (items, s) ← blockItems? handles true fuel { s with tokens := rest }
          return (.sequence p.anchor p.tag items, s)
        else if block && t = .blockMappingStart then
          let (entries, s) ← blockEntries? handles fuel { s with tokens := rest }
          return (.mapping p.anchor p.tag entries, s)
        else if p.anchor.isSome || p.tag.isSome then
          return (.scalar p.anchor p.tag [] true, s)
        else none
      | [] =>
        if p.anchor.isSome || p.tag.isSome then return (.scalar p.anchor p.tag [] true, s)
        else none

/-- A node, or the empty one if one of `stops` comes next. -/
def nodeUnless? (handles : Handles) (block : Bool) (stops : List Token) :
    Nat → Stream → Option (Node × Stream)
  | 0, _ => none
  | fuel + 1, s =>
    if s.startsWith stops then some (.empty, s) else node? handles block block fuel s

/-- The entries of a block sequence. A sequence that was `opened` by its column is also closed by a
token; another ends where no further entry follows. -/
def blockItems? (handles : Handles) (opened : Bool) : Nat → Stream → Option (List Node × Stream)
  | 0, _ => none
  | fuel + 1, s =>
    match s.tokens with
    | .blockEntry :: rest => do
      let s := { s with tokens := rest }
      let stops :=
        if opened then [.blockEntry, .blockEnd] else [.blockEntry, .key, .value, .blockEnd]
      let (item, s) ←
        if s.startsWith stops then some (.empty, s) else node? handles true false fuel s
      let (items, s) ← blockItems? handles opened fuel s
      return (item :: items, s)
    | .blockEnd :: rest => if opened then some ([], { s with tokens := rest }) else some ([], s)
    | _ => if opened then none else some ([], s)

/-- The entries of a block mapping up to its end. -/
def blockEntries? (handles : Handles) : Nat → Stream → Option (List (Node × Node) × Stream)
  | 0, _ => none
  | fuel + 1, s =>
    match s.tokens with
    | .key :: rest => do
      let stops := [.key, .value, .blockEnd]
      let (key, s) ← nodeUnless? handles true stops fuel { s with tokens := rest }
      let (value, s) ←
        if s.startsWith [.value] then nodeUnless? handles true stops fuel s.drop
        else some (.empty, s)
      let (entries, s) ← blockEntries? handles fuel s
      return ((key, value) :: entries, s)
    | .blockEnd :: rest => some ([], { s with tokens := rest })
    | _ => none

/-- The value behind a key inside brackets, if a colon says that there is one. -/
def flowValue? (handles : Handles) (stops : List Token) : Nat → Stream → Option (Node × Stream)
  | 0, _ => none
  | fuel + 1, s =>
    if s.startsWith [.value] then nodeUnless? handles false stops fuel s.drop else some (.empty, s)

/-- The elements of a bracketed sequence up to its end, the `first` without a comma before it. An
element may be a single key with its value; where the key is empty, what stands in its place is
passed over. -/
def flowItems? (handles : Handles) (first : Bool) : Nat → Stream → Option (List Node × Stream)
  | 0, _ => none
  | fuel + 1, s =>
    if s.startsWith [.flowSequenceEnd] then some ([], s.drop)
    else if !first && !s.startsWith [.flowEntry] then none
    else
      let s := if first then s else s.drop
      match s.tokens with
      | .flowSequenceEnd :: rest => some ([], { s with tokens := rest })
      | .key :: rest => do
        let s := { s with tokens := rest }
        let (key, s) ←
          if s.startsWith [.value, .flowEntry, .flowSequenceEnd] then some (.empty, s.drop)
          else node? handles false false fuel s
        let (value, s) ← flowValue? handles [.flowEntry, .flowSequenceEnd] fuel s
        let (items, s) ← flowItems? handles false fuel s
        return (.mapping none none [(key, value)] :: items, s)
      | _ => do
        let (item, s) ← node? handles false false fuel s
        let (items, s) ← flowItems? handles false fuel s
        return (item :: items, s)

/-- The entries of a bracketed mapping up to its end, the `first` without a comma before it. -/
def flowEntries? (handles : Handles) (first : Bool) :
    Nat → Stream → Option (List (Node × Node) × Stream)
  | 0, _ => none
  | fuel + 1, s =>
    if s.startsWith [.flowMappingEnd] then some ([], s.drop)
    else if !first && !s.startsWith [.flowEntry] then none
    else
      let s := if first then s else s.drop
      match s.tokens with
      | .flowMappingEnd :: rest => some ([], { s with tokens := rest })
      | .key :: rest => do
        let (key, s) ←
          nodeUnless? handles false [.value, .flowEntry, .flowMappingEnd] fuel
            { s with tokens := rest }
        let (value, s) ← flowValue? handles [.flowEntry, .flowMappingEnd] fuel s
        let (entries, s) ← flowEntries? handles false fuel s
        return ((key, value) :: entries, s)
      | _ => do
        let (key, s) ← node? handles false false fuel s
        let (entries, s) ← flowEntries? handles false fuel s
        return ((key, .empty) :: entries, s)

end

/-! ## Documents -/

/-- The handles that every document knows. -/
def defaultHandles : Handles :=
  [(['!'], [some '!']), (['!', '!'], "tag:yaml.org,2002:".toList.map some)]

/-- The handles that the directives in front of a document declare, and what follows them. There is
one version directive at most, for a version that is known, and one declaration for a handle. -/
def directives? (versioned : Bool) (handles : Handles) : List Token → Option (Handles × List Token)
  | .versionDirective major minor :: rest =>
    if versioned || major ≠ 1 || (minor ≠ 1 && minor ≠ 2) then none
    else directives? true handles rest
  | .tagDirective handle expansion :: rest =>
    if handles.any (·.1 = handle) then none
    else directives? versioned (handles ++ [(handle, expansion)]) rest
  | rest => some (handles, rest)

/-- Whether a token stands outside of every document's content. -/
def isBoundary : Token → Bool
  | .versionDirective .. | .tagDirective .. | .documentStart | .documentEnd => true
  | _ => false

/-- The content of a document, as far as tokens belong to it. Every token is met by two calls at
most that pass it on, and the third takes it. -/
def content? (handles : Handles) (tokens : List Token) : Option (Node × List Token) :=
  (node? (handles ++ defaultHandles) true false (4 * tokens.length + 4) ⟨tokens, []⟩).map
    fun (n, s) => (n, s.tokens)

/-- A document with the directives and the marker in front of it, or one without either. -/
def document? (tokens : List Token) : Option (Node × List Token) := do
  match tokens.head? with
  | some .documentEnd => none
  | some t =>
    if isBoundary t then
      let (handles, rest) ← directives? false [] tokens
      match rest with
      | .documentStart :: rest =>
        if rest.head?.all isBoundary then return (.empty, rest) else content? handles rest
      | _ => none
    else content? [] tokens
  | none => return (.empty, [])

end Stream

/-- The document that tokens write. Nothing but end markers may follow it. -/
def Node.ofTokens? (tokens : List Token) : Option Node := do
  let (n, rest) ← Stream.document? tokens
  if (rest.dropWhile (· = .documentEnd)).isEmpty then return n else none

end RecordGuard.Yaml
