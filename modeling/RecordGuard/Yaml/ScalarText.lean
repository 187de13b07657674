import RecordGuard.Yaml.Cursor

/-!
# Texts of YAML scalars

A scalar is written plain, between quotes, or as a block of lines. In the first two styles line
breaks inside the text are folded: a single one becomes a space, and of several the first is dropped
and the others stay. A block keeps its line breaks or folds those between lines that do not begin
with a blank, and its indicators say what becomes of the breaks at its end.
-/

namespace RecordGuard.Yaml

/-! ## Gaps

A gap is what separates two words of a plain or quoted text: blanks, or line breaks and the blanks
around them. -/

structure Gap where
  /-- Whether there is a line break, written or escaped. -/
  broken : Bool
  /-- The blanks, where there is no line break. -/
  blanks : List Char
  firstBreak : List Char
  /-- The line breaks after the first. -/
  moreBreaks : List Char

namespace Gap

def none : Gap := ⟨false, [], [], []⟩

def text (g : Gap) : List Char :=
  if !g.broken then g.blanks
  else if g.firstBreak = ['\n'] then (if g.moreBreaks.isEmpty then [' '] else g.moreBreaks)
  else g.firstBreak ++ g.moreBreaks

/-- The line breaks of the empty lines from here on, and the place behind them and behind the blanks
that begin the next line. With `indent` given, a tab that stands left of it is an error. -/
def emptyLines? (indent : Option Int) : Nat → Cursor → Option (List Char × Cursor)
  | 0, c => some ([], c)
  | fuel + 1, c =>
    match c.peek? with
    | .none => some ([], c)
    | some ch =>
      if isBlank ch then
        if ch = '\t' && indent.any fun i => decide ((c.column : Int) < i) then .none
        else emptyLines? indent fuel (c.advance 1)
      else if isBreak ch then
        let (br, c) := c.lineBreak
        (emptyLines? indent fuel c).map fun (more, c) => (br ++ more, c)
      else some ([], c)

def read? (indent : Option Int) (g : Gap) (c : Cursor) : Option (Gap × Cursor) :=
  if g.broken then
    (emptyLines? indent c.limit c).map fun (more, c) =>
      ({ g with moreBreaks := g.moreBreaks ++ more }, c)
  else
    let (blanks, c) := c.span isBlank
    if c.peek?.any isBreak then
      let (first, c) := c.lineBreak
      (emptyLines? indent c.limit c).map fun (more, c) => (⟨true, [], first, more⟩, c)
    else some ({ g with blanks := g.blanks ++ blanks }, c)

end Gap

/-! ## Plain texts -/

/-- Whether a character ends a plain text inside brackets. -/
def endsFlowPlain (c : Char) : Bool := [',', '[', ']', '\x7b', '\x7d'].contains c

/-- The word that a text begins with, up to a blank, a line break or a mark that ends plain texts.
Inside brackets a colon directly in front of a bracket, a comma or a question mark is an error. -/
def plainWord? (inFlow : Bool) : List Char → Option (List Char)
  | [] => some []
  | ch :: rest =>
    if isBlank ch || isBreak ch then some []
    else if inFlow && ch = ':' && rest.head?.any fun next => next = '?' || endsFlowPlain next then
      none
    else if (ch = ':' && endsWord rest.head?) || (inFlow && endsFlowPlain ch) then some []
    else (plainWord? inFlow rest).map (ch :: ·)

structure ScalarRead where
  text : List Char
  cursor : Cursor
  /-- Whether the reading stopped behind a line break. -/
  broken : Bool

/-- Read on in a plain text that is indented by at least `indent` outside of brackets, `gap` lying
behind what was read. A gap at the end does not belong to the text. -/
def plainFrom? (inFlow : Bool) (indent : Int) : Nat → Gap → Cursor → Option ScalarRead
  | 0, gap, c => some ⟨[], c, gap.broken⟩
  | fuel + 1, gap, c =>
    if c.atDocumentMarker || c.peek? = some '#' then some ⟨[], c, gap.broken⟩ else
      match plainWord? inFlow c.rest with
      | none => none
      | some [] => some ⟨[], c, gap.broken⟩
      | some word =>
        let text := gap.text ++ word
        let c := c.advance word.length
        if c.atEnd || !endsWord c.peek? then some ⟨text, c, false⟩ else
          match Gap.none.read? (some indent) c with
          | none => none
          | some (gap, c) =>
            if !inFlow && decide ((c.column : Int) < indent) then some ⟨text, c, gap.broken⟩
            else
              (plainFrom? inFlow indent fuel gap c).map fun read =>
                { read with text := text ++ read.text }

/-- The plain text that begins here. -/
def plain? (inFlow : Bool) (indent : Int) (c : Cursor) : Option ScalarRead :=
  plainFrom? inFlow indent (c.limit + 1) Gap.none c

/-! ## Quoted texts -/

def hexDigit? (c : Char) : Option Nat :=
  if c.isDigit then some (c.toNat - '0'.toNat)
  else if 'a' ≤ c ∧ c ≤ 'f' then some (c.toNat - 'a'.toNat + 10)
  else if 'A' ≤ c ∧ c ≤ 'F' then some (c.toNat - 'A'.toNat + 10)
  else none

/-- The character whose code point the given number of hexadecimal digits name. -/
def codePoint? (digits : Nat) (cs : List Char) : Option Char := do
  let ds ← (cs.take digits).mapM hexDigit?
  let n := ds.foldl (fun n d => n * 16 + d) 0
  if ds.length = digits ∧ n.isValidChar then some (Char.ofNat n) else none

/-- What an escape stands for, and how many characters it takes behind the backslash. -/
def escape? : List Char → Option (Char × Nat)
  | '0' :: _ => some ('\x00', 1)
  | 'a' :: _ => some ('\x07', 1)
  | 'b' :: _ => some ('\x08', 1)
  | 't' :: _ | '\t' :: _ => some ('\t', 1)
  | 'n' :: _ => some ('\n', 1)
  | 'v' :: _ => some ('\x0b', 1)
  | 'f' :: _ => some ('\x0c', 1)
  | 'r' :: _ => some ('\r', 1)
  | 'e' :: _ => some ('\x1b', 1)
  | ' ' :: _ => some (' ', 1)
  | '"' :: _ => some ('"', 1)
  | '/' :: _ => some ('/', 1)
  | '\\' :: _ => some ('\\', 1)
  | 'N' :: _ => some ('\x85', 1)
  | '_' :: _ => some ('\xa0', 1)
  | 'L' :: _ => some ('\u2028', 1)
  | 'P' :: _ => some ('\u2029', 1)
  | 'x' :: rest => (codePoint? 2 rest).map fun c => (c, 3)
  | 'u' :: rest => (codePoint? 4 rest).map fun c => (c, 5)
  | 'U' :: rest => (codePoint? 8 rest).map fun c => (c, 9)
  | _ => none

/-- The word of a quoted text that begins here, and the gap that an escaped line break opens behind
it. It ends at a blank, at a line break, at the closing quote, or behind an escaped line break. -/
def quotedWord? (quote : Char) : Nat → Cursor → Option (List Char × Gap × Cursor)
  | 0, c => some ([], Gap.none, c)
  | fuel + 1, c =>
    let readOn (ch : Char) (n : Nat) :=
      (quotedWord? quote fuel (c.advance n)).map fun (word, behind) => (ch :: word, behind)
    match c.rest with
    | [] => some ([], Gap.none, c)
    | ch :: rest =>
      if isBlank ch || isBreak ch then some ([], Gap.none, c)
      else if ch = '\'' && quote = '\'' && rest.head? = some '\'' then readOn '\'' 2
      else if ch = quote then some ([], Gap.none, c)
      else if ch = '\\' && quote = '"' then
        if rest.head?.any isBreak then
          some ([], { Gap.none with broken := true }, (c.advance 1).lineBreak.2)
        else
          match escape? rest with
          | none => none
          | some (escaped, n) => readOn escaped (n + 1)
      else readOn ch 1

/-- Read on in a quoted text up to its closing quote. -/
def quotedFrom? (quote : Char) : Nat → Cursor → Option (List Char × Cursor)
  | 0, _ => none
  | fuel + 1, c =>
    if c.atDocumentMarker || c.atEnd then none else
      match quotedWord? quote (c.limit + 1) c with
      | none => none
      | some (word, gap, c) =>
        if c.peek? = some quote then some (word, c.advance 1) else
          match gap.read? none c with
          | none => none
          | some (gap, c) =>
            (quotedFrom? quote fuel c).map fun (text, c) => (word ++ gap.text ++ text, c)

/-- The quoted text that begins here with its opening quote. -/
def quoted? (quote : Char) (c : Cursor) : Option (List Char × Cursor) :=
  quotedFrom? quote (c.limit + 1) (c.advance 1)

/-! ## Blocks -/

/-- What becomes of the line breaks at the end of a block. -/
inductive Chomping where
  | strip
  | clip
  | keep

/-- The indicators at the head of a block: chomping and indentation in either order. -/
def blockHeader? (c : Cursor) : Option (Chomping × Nat × Cursor) :=
  let chomping? : Option Char → Option Chomping
    | some '+' => some .keep
    | some '-' => some .strip
    | _ => none
  let increment? (ch : Option Char) : Option Nat :=
    ch.bind fun ch => if ch.isDigit then some (ch.toNat - '0'.toNat) else none
  let header := match chomping? c.peek?, increment? c.peek? with
    | some chomping, _ =>
      match increment? (c.at? 1) with
      | some n => (chomping, some n, c.advance 2)
      | none => (chomping, none, c.advance 1)
    | none, some n =>
      match chomping? (c.at? 1) with
      | some chomping => (chomping, some n, c.advance 2)
      | none => (.clip, some n, c.advance 1)
    | none, none => (.clip, none, c)
  match header with
  | (_, some 0, _) => none
  | (chomping, n, c) => some (chomping, n.getD 0, c)

/-- Read over indentation and empty lines: their line breaks, and the largest column reached. An
`indent` of zero is not known yet. A tab where indentation is expected is an error. -/
def blockBreaks? (indent : Nat) : Nat → Nat → Cursor → Option (List Char × Nat × Cursor)
  | 0, reached, c => some ([], reached, c)
  | fuel + 1, reached, c =>
    let spaces := (c.rest.takeWhile (· = ' ')).length
    let c := c.advance (if indent = 0 then spaces else min spaces (indent - c.column))
    let reached := max reached c.column
    if (indent = 0 || c.column < indent) && c.peek? = some '\t' then none
    else if c.peek?.any isBreak then
      let (br, c) := c.lineBreak
      (blockBreaks? indent fuel reached c).map fun (more, behind) => (br ++ more, behind)
    else some ([], reached, c)

/-- The lines of a block: their text, the break behind the last of them and the breaks that follow
it. `br` and `breaks` are what stands in front, and `blank` tells whether the line in front of that
began with a blank. -/
def blockLines? (folded : Bool) (indent : Nat) :
    Nat → Bool → List Char → List Char → Cursor →
      Option (List Char × List Char × List Char × Cursor)
  | 0, _, br, breaks, c => some ([], br, breaks, c)
  | fuel + 1, blank, br, breaks, c =>
    if c.column ≠ indent || c.atEnd then some ([], br, breaks, c) else
      let startsBlank := c.peek?.any isBlank
      let joint :=
        if folded && br = ['\n'] && !blank && !startsBlank then
          (if breaks.isEmpty then [' '] else [])
        else br
      let (line, c) := c.span fun ch => !isBreak ch
      let (br, c) := c.lineBreak
      match blockBreaks? indent (c.limit + 1) 0 c with
      | none => none
      | some (more, _, c) =>
        (blockLines? folded indent fuel startsBlank br more c).map fun (text, behind) =>
          (joint ++ breaks ++ line ++ text, behind)

/-- The block that begins here with its style indicator, inside a block indented by `outer`. -/
def block? (folded : Bool) (outer : Int) (c : Cursor) : Option (List Char × Cursor) := do
  let (chomping, increment, c) ← blockHeader? (c.advance 1)
  let c ← c.endLine?
  let given : Nat := if increment = 0 then 0 else (max outer 0).toNat + increment
  let (breaks, reached, c) ← blockBreaks? given (c.limit + 1) 0 c
  let indent := if given = 0 then max (max reached (outer + 1).toNat) 1 else given
  let (text, br, breaks, c) ←
    blockLines? folded indent (c.limit + 1) false [] breaks c
  match chomping with
  | .strip => return (text, c)
  | .clip => return (text ++ br, c)
  | .keep => return (text ++ br ++ breaks, c)

end RecordGuard.Yaml
