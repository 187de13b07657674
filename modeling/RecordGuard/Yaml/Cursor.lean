/-!
# Positions in a YAML text

A cursor is what is left of a text and where that begins: how many bytes came before it in the
text's UTF-8 form, and the line and column. Layout hangs on columns, and a column counts characters
since the last line break, whatever they are; only the length of a key is measured in bytes.
-/

namespace RecordGuard.Yaml

/-! ## Character classes -/

/-- The line breaks: line feed, carriage return, next line, and the line and paragraph
separators. -/
def isBreak (c : Char) : Bool :=
  c = '\n' || c = '\r' || c = '\x85' || c = '\u2028' || c = '\u2029'

def isBlank (c : Char) : Bool := c = ' ' || c = '\t'

/-- Whether nothing, a blank or a line break comes next. -/
def endsWord : Option Char → Bool
  | none => true
  | some c => isBlank c || isBreak c

/-- Whether nothing or a line break comes next. -/
def endsLine : Option Char → Bool
  | none => true
  | some c => isBreak c

/-- The characters of names: ASCII letters and digits, the underscore and the hyphen. -/
def isNameChar (c : Char) : Bool := c.isAlphanum || c = '_' || c = '-'

/-- The characters that a text may contain at all. -/
def isAllowed (c : Char) : Bool :=
  let n := c.toNat
  n = 0x09 || n = 0x0a || n = 0x0d || (0x20 ≤ n && n ≤ 0x7e) || n = 0x85 ||
    (0xa0 ≤ n && n ≤ 0xd7ff) || (0xe000 ≤ n && n ≤ 0xfffd) || 0x10000 ≤ n

def byteOrderMark : Char := '\ufeff'

/-! ## Cursors -/

/-- What is left of a text and where it begins. -/
structure Cursor where
  rest : List Char
  /-- The length of the whole text, a bound on every loop over the rest. -/
  limit : Nat
  /-- The bytes in front. -/
  index : Nat
  line : Nat
  column : Nat

def byteLength (cs : List Char) : Nat := cs.foldl (fun n c => n + c.utf8Size) 0

namespace Cursor

def start (cs : List Char) : Cursor := ⟨cs, cs.length, 0, 0, 0⟩

def peek? (c : Cursor) : Option Char := c.rest.head?

def at? (c : Cursor) (n : Nat) : Option Char := c.rest[n]?

def atEnd (c : Cursor) : Bool := c.rest.isEmpty

/-- Behind `n` more characters of the same line. -/
def advance (c : Cursor) (n : Nat) : Cursor :=
  ⟨c.rest.drop n, c.limit, c.index + byteLength (c.rest.take n), c.line, c.column + n⟩

/-- The characters up to the first that is not in the class, and the place behind them. No line
break is in the class. -/
def span (c : Cursor) (inClass : Char → Bool) : List Char × Cursor :=
  let cs := c.rest.takeWhile inClass
  (cs, c.advance cs.length)

def skip (c : Cursor) (inClass : Char → Bool) : Cursor := (c.span inClass).2

/-- At the beginning of the line behind a break of `n` characters. -/
def breakLine (c : Cursor) (n : Nat) : Cursor :=
  ⟨c.rest.drop n, c.limit, c.index + byteLength (c.rest.take n), c.line + 1, 0⟩

/-- The line break at this place as a text keeps it, and the place behind it. The separators stay
what they are, every other break becomes a line feed. Elsewhere there is nothing to read. -/
def lineBreak (c : Cursor) : List Char × Cursor :=
  match c.rest with
  | '\r' :: '\n' :: _ => (['\n'], c.breakLine 2)
  | '\r' :: _ | '\n' :: _ | '\x85' :: _ => (['\n'], c.breakLine 1)
  | '\u2028' :: _ => (['\u2028'], c.breakLine 1)
  | '\u2029' :: _ => (['\u2029'], c.breakLine 1)
  | _ => ([], c)

/-- Whether a document marker, three of the given characters, begins the line here. -/
def atMarker (c : Cursor) (mark : Char) : Bool :=
  c.column = 0 && c.rest.take 3 = [mark, mark, mark] && endsWord (c.at? 3)

def atDocumentMarker (c : Cursor) : Bool := c.atMarker '-' || c.atMarker '.'

/-- Behind the rest of a line that holds blanks and a comment at most, unless it holds more. -/
def endLine? (c : Cursor) : Option Cursor :=
  let c := c.skip isBlank
  let c := if c.peek? = some '#' then c.skip fun ch => !isBreak ch else c
  if endsLine c.peek? then some c.lineBreak.2 else none

end Cursor

end RecordGuard.Yaml
