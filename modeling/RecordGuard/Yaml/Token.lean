import RecordGuard.Yaml.ScalarText

/-!
# Tokens of YAML

The words of a YAML text. Besides those that are written there are the tokens that layout implies:
where a block of entries starts and ends, and that what was just read is the key of a mapping.

This module has the tokens that carry text of their own: directives, anchors, aliases and tags.
-/

namespace RecordGuard.Yaml

/-- The text of a tag. Its characters may be escaped byte by byte, and bytes in the form of a
character that are none leave a gap, `none`. -/
abbrev TagText := List (Option Char)

inductive Token where
  | versionDirective (major minor : Nat)
  /-- Tags that begin with `handle` stand for tags that begin with `expansion`. -/
  | tagDirective (handle : List Char) (expansion : TagText)
  | documentStart
  | documentEnd
  | blockSequenceStart
  | blockMappingStart
  | blockEnd
  | flowSequenceStart
  | flowSequenceEnd
  | flowMappingStart
  | flowMappingEnd
  | blockEntry
  | flowEntry
  | key
  | value
  | reference (name : List Char)
  | anchor (name : List Char)
  | tag (handle : List Char) (suffix : TagText)
  | scalar (text : List Char) (plain : Bool)
deriving DecidableEq

/-! ## Names -/

/-- The name of an anchor or alias, its mark already passed. Something that cannot belong to a name
has to follow. -/
def anchorName? (c : Cursor) : Option (List Char × Cursor) :=
  let (name, c) := c.span isNameChar
  let ends := endsWord c.peek? ||
    c.peek?.any fun ch => ['?', ':', ',', ']', '\x7d', '%', '@', '\x60'].contains ch
  if name.isEmpty || !ends then none else some (name, c)

/-! ## Tags -/

/-- How many bytes a character takes whose encoding begins with a byte, and the bits that this one
contributes. -/
def leadByte? (b : Nat) : Option (Nat × Nat) :=
  if b < 0x80 then some (1, b)
  else if 0xc0 ≤ b ∧ b < 0xe0 then some (2, b - 0xc0)
  else if 0xe0 ≤ b ∧ b < 0xf0 then some (3, b - 0xe0)
  else if 0xf0 ≤ b ∧ b < 0xf8 then some (4, b - 0xf0)
  else none

/-- A byte written as a percent sign and two hexadecimal digits. -/
def escapedByte? : List Char → Option (Nat × List Char)
  | '%' :: a :: b :: rest => do return ((← hexDigit? a) * 16 + (← hexDigit? b), rest)
  | _ => none

/-- The continuation bytes of an escaped character. -/
def escapedTail? : Nat → Nat → List Char → Option (Nat × List Char)
  | 0, n, cs => some (n, cs)
  | count + 1, n, cs => do
    let (b, cs) ← escapedByte? cs
    if 0x80 ≤ b ∧ b < 0xc0 then escapedTail? count (n * 64 + (b - 0x80)) cs else none

/-- The character of a code point that is written in so many bytes. There is none for a surrogate,
beyond the last code point, or if fewer bytes would do. -/
def encodedChar? (n count : Nat) : Option Char :=
  if n.isValidChar ∧ (Char.ofNat n).utf8Size = count then some (Char.ofNat n) else none

/-- An escaped character, or bytes in the form of one, and how many characters the escapes take. -/
def escapedChar? (cs : List Char) : Option (Option Char × Nat) := do
  let (b, rest) ← escapedByte? cs
  let (count, bits) ← leadByte? b
  let (n, _) ← escapedTail? (count - 1) bits rest
  return (encodedChar? n count, 3 * count)

/-- The characters of a tag. Those of a bracketed tag include the comma and the square brackets. -/
def isTagChar (bracketed : Bool) (c : Char) : Bool :=
  isNameChar c || ";/?:@&=+$.%!~*'()".toList.contains c ||
    (bracketed && (c = ',' || c = '[' || c = ']'))

/-- As many tag characters as there are, escapes resolved. -/
def tagText? (bracketed : Bool) : Nat → Cursor → Option (TagText × Cursor)
  | 0, c => some ([], c)
  | fuel + 1, c =>
    let readOn (ch : Option Char) (n : Nat) :=
      (tagText? bracketed fuel (c.advance n)).map fun (text, c) => (ch :: text, c)
    match c.peek? with
    | none => some ([], c)
    | some ch =>
      if !isTagChar bracketed ch then some ([], c)
      else if ch = '%' then
        match escapedChar? c.rest with
        | none => none
        | some (escaped, n) => readOn escaped n
      else readOn (some ch) 1

/-- A tag text as far as it counts: it ends in front of the character zero. -/
def cutTag (text : TagText) : TagText := text.takeWhile (· ≠ some '\x00')

/-- Tag characters, at least one of them. -/
def someTagText? (bracketed : Bool) (c : Cursor) : Option (TagText × Cursor) :=
  match tagText? bracketed c.limit c with
  | none | some ([], _) => none
  | some (text, c) => some (cutTag text, c)

/-- A mark, name characters, and perhaps another mark: a tag's handle, or the beginning of a tag
without one. -/
def tagHandle? (c : Cursor) : Option (List Char × Cursor) :=
  if c.peek? = some '!' then
    let (name, c) := (c.advance 1).span isNameChar
    if c.peek? = some '!' then some ('!' :: name ++ ['!'], c.advance 1)
    else some ('!' :: name, c)
  else none

/-- A tag that stands on its own, between angle brackets. -/
def bracketedTag? (c : Cursor) : Option (Token × Cursor) := do
  let (text, c) ← someTagText? true (c.advance 2)
  if c.peek? = some '>' then return (.tag [] text, c.advance 1) else none

/-- A tag with or without a handle. The lone mark is a tag by itself. -/
def shortTag? (c : Cursor) : Option (Token × Cursor) := do
  let (handle, c) ← tagHandle? c
  if handle.length ≥ 2 ∧ handle.getLast? = some '!' then
    let (suffix, c) ← someTagText? false c
    return (.tag handle suffix, c)
  else
    let (more, c) ← tagText? false c.limit c
    match cutTag ((handle.drop 1).map some ++ more) with
    | [] => return (.tag [] [some '!'], c)
    | suffix => return (.tag ['!'] suffix, c)

/-- The tag that begins here. What follows has to be set off; inside brackets a comma does that
too. -/
def tag? (inFlow : Bool) (c : Cursor) : Option (Token × Cursor) := do
  let (t, c) ← if c.at? 1 = some '<' then bracketedTag? c else shortTag? c
  if (inFlow && c.peek? = some ',') || endsWord c.peek? then return (t, c) else none

/-! ## Directives -/

/-- A number of one to nine digits. -/
def versionNumber? (c : Cursor) : Option (Nat × Cursor) :=
  let (ds, c) := c.span Char.isDigit
  if ds.isEmpty || 9 < ds.length then none
  else some (ds.foldl (fun n d => n * 10 + (d.toNat - '0'.toNat)) 0, c)

def versionDirective? (c : Cursor) : Option (Token × Cursor) := do
  let (major, c) ← versionNumber? (c.skip isBlank)
  if c.peek? = some '.' then
    let (minor, c) ← versionNumber? (c.advance 1)
    return (.versionDirective major minor, c)
  else none

def tagDirective? (c : Cursor) : Option (Token × Cursor) := do
  let (handle, c) ← tagHandle? (c.skip isBlank)
  let complete := handle = ['!'] ∨ (handle.length ≥ 2 ∧ handle.getLast? = some '!')
  if complete ∧ c.peek?.any isBlank then
    let (expansion, c) ← someTagText? true (c.skip isBlank)
    if endsWord c.peek? then return (.tagDirective handle expansion, c) else none
  else none

/-- The directive that makes up the line here. -/
def directive? (c : Cursor) : Option (Token × Cursor) := do
  let (name, c) := (c.advance 1).span isNameChar
  if endsWord c.peek? then
    let (t, c) ← match String.ofList name with
      | "YAML" => versionDirective? c
      | "TAG" => tagDirective? c
      | _ => none
    return (t, ← c.endLine?)
  else none

end RecordGuard.Yaml
