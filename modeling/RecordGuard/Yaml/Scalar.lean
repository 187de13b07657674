import RecordGuard.Json.Basic
import RecordGuard.Yaml.Token

/-!
# What YAML scalars denote

A plain scalar without a tag denotes the first of these that its text can be read as: nothing, a
truth value, an integer, a number, and else its own text. Integers are decimal, or hexadecimal,
octal or binary behind `0x`, `0o` or `0b`; one that fits into 128 bits but not into 64 is an error.
Decimal digits with a zero in front are neither integer nor number. A number that is not finite
denotes nothing where it is spelled out and its text where it is only too large.

A tag of the core schema demands one of these readings, any other tag means the text itself. A tag
of the document's own, one that begins with an exclamation mark, is an error if it is a text and
counts for nothing if it has gaps.
-/

namespace RecordGuard.Yaml.Scalar

def isNull (cs : List Char) : Bool := ["null", "Null", "NULL", "~"].contains (String.ofList cs)

def bool? (cs : List Char) : Option Bool :=
  match String.ofList cs with
  | "true" | "True" | "TRUE" => some true
  | "false" | "False" | "FALSE" => some false
  | _ => none

/-! ## Integers -/

def digitIn? (radix : Nat) (c : Char) : Option Nat :=
  let d := if c.isDigit then c.toNat - '0'.toNat
    else if c.isAlpha then c.toLower.toNat - 'a'.toNat + 10
    else radix
  if d < radix then some d else none

/-- The value of digits in a base; there has to be one at least. -/
def natural? (radix : Nat) (cs : List Char) : Option Nat :=
  if cs.isEmpty then none
  else (cs.mapM (digitIn? radix)).map fun ds => ds.foldl (fun n d => n * radix + d) 0

/-- The base that a text announces, and its digits. -/
def radix? : List Char → Option (Nat × List Char)
  | '0' :: 'x' :: ds => some (16, ds)
  | '0' :: 'o' :: ds => some (8, ds)
  | '0' :: 'b' :: ds => some (2, ds)
  | _ => none

def unsigned : List Char → List Char
  | '+' :: rest | '-' :: rest => rest
  | cs => cs

/-- Decimal digits with a zero in front. -/
def isPadded (cs : List Char) : Bool :=
  match unsigned cs with
  | '0' :: d :: rest => (d :: rest).all Char.isDigit
  | _ => false

/-- The integer that a text writes, whatever its size. -/
def integer? (cs : List Char) : Option Int :=
  let negative := cs.head? = some '-'
  let digits := unsigned cs
  let magnitude := match (radix? digits).bind fun (radix, ds) => natural? radix ds with
    | some n => some n
    | none => if isPadded cs then none else natural? 10 digits
  magnitude.map fun n => if negative then -(n : Int) else n

/-- An integer as far as integers go: of 64 bits it is one, of 128 bits it is an error, and beyond
that it is no integer. -/
inductive IntegerReading where
  | integer (z : Int)
  | tooLarge
  | none

/-- Whether an integer is one of the `size` unsigned or the `size` signed integers. -/
def fits (size : Nat) (z : Int) : Bool := decide (-(size / 2 : Nat) ≤ z) && decide (z < size)

/-- The integer that a text writes, by its size. -/
def readInteger (cs : List Char) : IntegerReading :=
  match integer? cs with
  | .none => .none
  | some z =>
    if fits UInt64.size z then .integer z
    else if fits (UInt64.size * UInt64.size) z then .tooLarge
    else .none

/-! ## Numbers -/

/-- A decimal: digits with at most one point among them and one digit at least, and perhaps an
exponent. -/
def decimal? (negative : Bool) (cs : List Char) : Option Number :=
  let whole := cs.takeWhile Char.isDigit
  let rest := cs.drop whole.length
  let (part, rest) := match rest with
    | '.' :: rest => (rest.takeWhile Char.isDigit, rest.dropWhile Char.isDigit)
    | rest => ([], rest)
  if whole.isEmpty && part.isEmpty then none else do
    let digits ← natural? 10 (whole ++ part)
    let exponent : Int ← match rest with
      | [] => some 0
      | 'e' :: '-' :: ds | 'E' :: '-' :: ds => (natural? 10 ds).map fun n => -(n : Int)
      | 'e' :: '+' :: ds | 'E' :: '+' :: ds => (natural? 10 ds).map fun n => (n : Int)
      | 'e' :: ds | 'E' :: ds => (natural? 10 ds).map fun n => (n : Int)
      | _ => none
    return Number.ofDecimal negative digits (exponent - part.length)

/-- The number that a text writes: one of the names of the numbers that are not finite, or a decimal
that is. -/
def number? (cs : List Char) : Option Number :=
  match String.ofList (if cs.head? = some '+' then cs.drop 1 else cs) with
  | ".inf" | ".Inf" | ".INF" => some (Number.infinity false)
  | _ =>
    match String.ofList cs with
    | "-.inf" | "-.Inf" | "-.INF" => some (Number.infinity true)
    | ".nan" | ".NaN" | ".NAN" => some Number.nan
    | _ => (decimal? (cs.head? = some '-') (unsigned cs)).filter (·.isFinite)

/-- The tree of a number: one that is not finite denotes nothing. -/
def ofNumber (n : Number) : Json := if n.isFinite then .number (.float n) else .null

/-! ## Readings -/

def plain? (cs : List Char) : Option Json :=
  if cs.isEmpty || isNull cs then some .null
  else
    match bool? cs with
    | some b => some (.bool b)
    | none =>
      match readInteger cs with
      | .integer z => some (.number (.integer z))
      | .tooLarge => none
      | .none =>
        match if isPadded cs then none else number? cs with
        | some n => some (ofNumber n)
        | none => some (.string (String.ofList cs))

def untagged? (cs : List Char) (plain : Bool) : Option Json :=
  if plain then plain? cs else some (.string (String.ofList cs))

/-- What a scalar denotes under a tag that is a text. -/
def tagged? (tag : String) (cs : List Char) : Option Json :=
  match tag with
  | "tag:yaml.org,2002:bool" => (bool? cs).map .bool
  | "tag:yaml.org,2002:int" =>
    match readInteger cs with
    | .integer z => some (.number (.integer z))
    | _ => none
  | "tag:yaml.org,2002:float" => (number? cs).map ofNumber
  | "tag:yaml.org,2002:null" => if isNull cs then some .null else none
  | _ => some (.string (String.ofList cs))

/-- Whether a tag is one of the document's own. -/
def isOwnTag (tag : TagText) : Bool := tag.head? = some (some '!')

/-- A tag as a text, unless it has gaps. -/
def tagName? (tag : TagText) : Option String := (tag.mapM id).map String.ofList

def json? (tag : Option TagText) (cs : List Char) (plain : Bool) : Option Json :=
  match tag with
  | none => untagged? cs plain
  | some tag =>
    match isOwnTag tag, tagName? tag with
    | true, some _ => none
    | true, none => untagged? cs plain
    | false, some name => tagged? name cs
    | false, none => some (.string (String.ofList cs))

end RecordGuard.Yaml.Scalar
