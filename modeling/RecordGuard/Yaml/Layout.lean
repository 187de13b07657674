import RecordGuard.Yaml.Token

/-!
# Layout

How a YAML text becomes tokens. Outside of brackets indentation opens and closes blocks: an entry or
key at a deeper column than the present block opens one, and a line at a shallower column closes
those it falls out of. What is read where a key may stand is a possible key; if a colon follows on
the same line within 1024 bytes, the key token is put in front of it, and with it the start of
a mapping if its column calls for one.
-/

namespace RecordGuard.Yaml

/-- Something that turns out to be a key if a colon follows. -/
structure PossibleKey where
  /-- Whether layout leaves no other reading, so that a missing colon is an error. -/
  required : Bool
  /-- Where its key token goes. -/
  position : Nat
  index : Nat
  line : Nat
  column : Nat

structure Layout where
  cursor : Cursor
  tokens : Array Token
  /-- The column of the present block, before the first block -1. -/
  indent : Int
  /-- The columns of the blocks around it, innermost first. -/
  outer : List Int
  /-- The possible key of the present bracket level, then those of the levels around it. -/
  keys : List (Option PossibleKey)
  keyAllowed : Bool

namespace Layout

def start (cs : List Char) : Layout := ⟨Cursor.start cs, #[], -1, [], [none], true⟩

def inFlow (l : Layout) : Bool :=
  match l.keys with
  | _ :: _ :: _ => true
  | _ => false

def push (l : Layout) (t : Token) : Layout := { l with tokens := l.tokens.push t }

/-- Put a token at a position, those behind it moving on. -/
def insert (l : Layout) (position : Nat) (t : Token) : Layout :=
  { l with tokens := l.tokens.insertIdxIfInBounds position t }

/-- Pass some characters and add a token, behind which a key may begin or not. -/
def take (l : Layout) (t : Token) (n : Nat) (keyAllowed : Bool) : Layout :=
  { l with cursor := l.cursor.advance n, tokens := l.tokens.push t, keyAllowed }

/-! ## Possible keys -/

/-- Give up the possible key of the present level, unless it is required. -/
def dropKey? (l : Layout) : Option Layout :=
  match l.keys with
  | some k :: rest => if k.required then none else some { l with keys := none :: rest }
  | _ => some l

/-- What begins here may be a key. -/
def saveKey? (l : Layout) : Option Layout :=
  if !l.keyAllowed then some l else do
    let l ← l.dropKey?
    let c := l.cursor
    let required := !l.inFlow && decide (l.indent = c.column)
    let k : PossibleKey := ⟨required, l.tokens.size, c.index, c.line, c.column⟩
    return { l with keys := some k :: l.keys.drop 1 }

/-- A key stays possible on its own line and for 1024 bytes. -/
def stale (c : Cursor) (k : PossibleKey) : Bool :=
  decide (k.line < c.line) || decide (k.index + 1024 < c.index)

/-- Give up the possible key of the present level if it has become too long. Those of the levels
around it can wait until their level is the present one again: what is too long stays so. -/
def dropStale? (l : Layout) : Option Layout :=
  match l.keys with
  | some k :: _ => if stale l.cursor k then l.dropKey? else some l
  | _ => some l

/-! ## Blocks -/

/-- Open a block at a column if it is deeper than the present one, its token at the end or at a
position. -/
def openBlock (l : Layout) (column : Nat) (t : Token) (position : Option Nat) : Layout :=
  if !l.inFlow && decide (l.indent < column) then
    let l := match position with
      | some position => l.insert position t
      | none => l.push t
    { l with indent := column, outer := l.indent :: l.outer }
  else l

/-- Close the blocks deeper than a column, `indent` being the present one. -/
def closeFrom (column : Int) (tokens : Array Token) (indent : Int) :
    List Int → Array Token × Int × List Int
  | [] => (tokens, indent, [])
  | next :: outer =>
    if column < indent then closeFrom column (tokens.push .blockEnd) next outer
    else (tokens, indent, next :: outer)

/-- Close the blocks that a column falls out of. -/
def closeBlocks (l : Layout) (column : Int) : Layout :=
  if l.inFlow then l else
    let (tokens, indent, outer) := closeFrom column l.tokens l.indent l.outer
    { l with tokens, indent, outer }

/-! ## White space -/

/-- Pass blanks, comments and line breaks. Tabs are blanks except where a key may begin outside of
brackets. A byte order mark at the beginning of a line is passed as well. -/
def skipSpace : Nat → Layout → Layout
  | 0, l => l
  | fuel + 1, l =>
    let c := l.cursor
    let c := if c.column = 0 && c.peek? = some byteOrderMark then c.advance 1 else c
    let c := c.skip fun ch => ch = ' ' || ((l.inFlow || !l.keyAllowed) && ch = '\t')
    let c := if c.peek? = some '#' then c.skip fun ch => !isBreak ch else c
    if c.peek?.any isBreak then
      skipSpace fuel
        { l with cursor := c.lineBreak.2, keyAllowed := l.keyAllowed || !l.inFlow }
    else { l with cursor := c }

/-! ## Single tokens -/

/-- A token that ends all blocks: a directive or a document marker. -/
def topLevel? (l : Layout) : Option Layout := do
  let l ← (l.closeBlocks (-1)).dropKey?
  return { l with keyAllowed := false }

def openFlow? (l : Layout) (t : Token) : Option Layout := do
  let l ← l.saveKey?
  let keys := none :: l.keys
  return { l.take t 1 true with keys }

def closeFlow? (l : Layout) (t : Token) : Option Layout := do
  let l ← l.dropKey?
  let keys := if l.inFlow then l.keys.drop 1 else l.keys
  return { l.take t 1 false with keys }

def flowEntry? (l : Layout) : Option Layout := do
  let l ← l.dropKey?
  return l.take .flowEntry 1 true

/-- An entry of a block sequence. Inside brackets the mark is taken here and refused later. -/
def blockEntry? (l : Layout) : Option Layout := do
  if !l.inFlow && !l.keyAllowed then none
  else
    let l ← (l.openBlock l.cursor.column .blockSequenceStart none).dropKey?
    return l.take .blockEntry 1 true

def key? (l : Layout) : Option Layout := do
  if !l.inFlow && !l.keyAllowed then none
  else
    let l ← (l.openBlock l.cursor.column .blockMappingStart none).dropKey?
    return l.take .key 1 (!l.inFlow)

/-- The colon in front of a value: it makes a key of the possible key, or follows a marked or an
empty one. -/
def value? (l : Layout) : Option Layout :=
  match l.keys with
  | some k :: rest =>
    let l := (l.insert k.position .key).openBlock k.column .blockMappingStart (some k.position)
    some { l.take .value 1 false with keys := none :: rest }
  | _ =>
    if !l.inFlow && !l.keyAllowed then none
    else
      let l := l.openBlock l.cursor.column .blockMappingStart none
      some (l.take .value 1 (!l.inFlow))

/-- A token that may be a key, read by `read`, after which no key may begin. -/
def word? (l : Layout) (read : Cursor → Option (Token × Cursor)) : Option Layout := do
  let l ← l.saveKey?
  let (t, cursor) ← read l.cursor
  return { l with cursor, tokens := l.tokens.push t, keyAllowed := false }

def quotedScalar? (l : Layout) (quote : Char) : Option Layout :=
  l.word? fun c => (quoted? quote c).map fun (text, c) => (.scalar text false, c)

/-- A plain text. Behind a line break a key may begin again. -/
def plainScalar? (l : Layout) : Option Layout := do
  let l ← l.saveKey?
  let read ← plain? l.inFlow (l.indent + 1) l.cursor
  return { l with
    cursor := read.cursor, tokens := l.tokens.push (.scalar read.text true),
    keyAllowed := read.broken }

def blockScalar? (l : Layout) (folded : Bool) : Option Layout := do
  let l ← l.dropKey?
  let (text, cursor) ← block? folded l.indent l.cursor
  return { l with cursor, tokens := l.tokens.push (.scalar text false), keyAllowed := true }

/-! ## All tokens -/

/-- Whether a character may begin a plain text wherever it stands. -/
def beginsPlain (c : Char) : Bool :=
  !isBlank c && !isBreak c && !("-?:,[]\x7b\x7d#&*!|>'\"%@\x60".toList.contains c)

/-- Add the token that begins at the cursor with the character `ch`, `after` being the one behind
it. -/
def token? (l : Layout) (ch : Char) (after : Option Char) : Option Layout :=
  let inFlow := l.inFlow
  match ch with
  | '[' => l.openFlow? .flowSequenceStart
  | '\x7b' => l.openFlow? .flowMappingStart
  | ']' => l.closeFlow? .flowSequenceEnd
  | '\x7d' => l.closeFlow? .flowMappingEnd
  | ',' => l.flowEntry?
  | '-' => if endsWord after then l.blockEntry? else l.plainScalar?
  | '?' => if inFlow || endsWord after then l.key? else l.plainScalar?
  | ':' => if inFlow || endsWord after then l.value? else l.plainScalar?
  | '*' => l.word? fun c => (anchorName? (c.advance 1)).map fun (name, c) => (.reference name, c)
  | '&' => l.word? fun c => (anchorName? (c.advance 1)).map fun (name, c) => (.anchor name, c)
  | '!' => l.word? (tag? inFlow)
  | '|' => if inFlow then none else l.blockScalar? false
  | '>' => if inFlow then none else l.blockScalar? true
  | '\'' => l.quotedScalar? '\''
  | '"' => l.quotedScalar? '"'
  | ch => if beginsPlain ch then l.plainScalar? else none

/-- Add the next token, or close everything at the end of the text. The second component tells
whether there is more. -/
def next? (l : Layout) : Option (Layout × Bool) := do
  let l ← (skipSpace (l.cursor.limit + 1) l).dropStale?
  let l := l.closeBlocks l.cursor.column
  match l.cursor.rest with
  | [] =>
    let l ← (l.closeBlocks (-1)).dropKey?
    return (l, false)
  | ch :: rest =>
    if l.cursor.column = 0 && ch = '%' then
      let l ← l.topLevel?
      let (t, cursor) ← directive? l.cursor
      return ({ l with cursor, tokens := l.tokens.push t }, true)
    else if l.cursor.atMarker '-' then return ((← l.topLevel?).take .documentStart 3 false, true)
    else if l.cursor.atMarker '.' then return ((← l.topLevel?).take .documentEnd 3 false, true)
    else return (← l.token? ch rest.head?, true)

/-- Add all tokens. Each takes a character at least. -/
def allWith? : Nat → Layout → Option Layout
  | 0, _ => none
  | fuel + 1, l =>
    match l.next? with
    | none => none
    | some (l, true) => allWith? fuel l
    | some (l, false) => some l

end Layout

/-- The tokens of a text, unless a token is malformed or stands where it cannot. -/
def Token.scan? (cs : List Char) : Option (List Token) :=
  if cs.all isAllowed then
    (Layout.allWith? (cs.length + 2) (Layout.start cs)).map fun l => l.tokens.toList
  else none

end RecordGuard.Yaml
