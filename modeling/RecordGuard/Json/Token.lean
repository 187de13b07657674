import RecordGuard.Json.Numeral

/-!
# Tokens of JSON

The words of a JSON text. White space separates them and is dropped; it is space, tab, line feed and
carriage return and nothing else.
-/

namespace RecordGuard.Json

inductive Token where
  | openArray
  | closeArray
  | openObject
  | closeObject
  | comma
  | colon
  | string (s : String)
  /-- A number or one of the names `null`, `true` and `false`. -/
  | atom (value : Json)

namespace Token

/-! ## Strings -/

def hexValue? (c : Char) : Option Nat :=
  if c.isDigit then some (c.toNat - '0'.toNat)
  else if 'a' ≤ c ∧ c ≤ 'f' then some (c.toNat - 'a'.toNat + 10)
  else if 'A' ≤ c ∧ c ≤ 'F' then some (c.toNat - 'A'.toNat + 10)
  else none

def hex4? (a b c d : Char) : Option Nat := do
  return (((← hexValue? a) * 16 + (← hexValue? b)) * 16 + (← hexValue? c)) * 16 + (← hexValue? d)

def isHighSurrogate (n : Nat) : Bool := decide (0xd800 ≤ n ∧ n ≤ 0xdbff)

def isLowSurrogate (n : Nat) : Bool := decide (0xdc00 ≤ n ∧ n ≤ 0xdfff)

def joinSurrogates (high low : Nat) : Nat := 0x10000 + (high - 0xd800) * 0x400 + (low - 0xdc00)

def escape? : Char → Option Char
  | '"' => some '"'
  | '\\' => some '\\'
  | '/' => some '/'
  | 'b' => some '\x08'
  | 'f' => some '\x0c'
  | 'n' => some '\n'
  | 'r' => some '\r'
  | 't' => some '\t'
  | _ => none

/-- The characters of a string, its opening quote already read, and the text after its closing
quote. Control characters have to be escaped, and surrogates only come in pairs. -/
def string? : List Char → Option (List Char × List Char)
  | [] => none
  | '"' :: rest => some ([], rest)
  | '\\' :: 'u' :: a :: b :: c :: d :: rest => do
    let n ← hex4? a b c d
    if isHighSurrogate n then
      match rest with
      | '\\' :: 'u' :: e :: f :: g :: h :: rest =>
        let low ← hex4? e f g h
        if isLowSurrogate low then
          let (s, rest) ← string? rest
          return (Char.ofNat (joinSurrogates n low) :: s, rest)
        else none
      | _ => none
    else if isLowSurrogate n then none
    else
      let (s, rest) ← string? rest
      return (Char.ofNat n :: s, rest)
  | '\\' :: c :: rest => do
    let escaped ← escape? c
    let (s, rest) ← string? rest
    return (escaped :: s, rest)
  | c :: rest =>
    if c.toNat < 0x20 || c = '\\' then none
    else (string? rest).map fun (s, rest) => (c :: s, rest)

/-! ## All tokens -/

def isSpace (c : Char) : Bool := c = ' ' || c = '\t' || c = '\n' || c = '\r'

/-- The first token of a text that does not start with white space. -/
def next? : List Char → Option (Token × List Char)
  | '[' :: rest => some (openArray, rest)
  | ']' :: rest => some (closeArray, rest)
  | '\x7b' :: rest => some (openObject, rest)
  | '\x7d' :: rest => some (closeObject, rest)
  | ',' :: rest => some (comma, rest)
  | ':' :: rest => some (colon, rest)
  | '"' :: rest => (string? rest).map fun (s, rest) => (string (String.ofList s), rest)
  | 'n' :: 'u' :: 'l' :: 'l' :: rest => some (atom .null, rest)
  | 't' :: 'r' :: 'u' :: 'e' :: rest => some (atom (.bool true), rest)
  | 'f' :: 'a' :: 'l' :: 's' :: 'e' :: rest => some (atom (.bool false), rest)
  | '-' :: rest => (Numeral.read? true rest).map fun (n, rest) => (atom (.number n), rest)
  | cs => (Numeral.read? false cs).map fun (n, rest) => (atom (.number n), rest)

def scanWith : Nat → List Char → Option (List Token)
  | fuel, cs =>
    match cs.dropWhile isSpace, fuel with
    | [], _ => some []
    | _, 0 => none
    | cs, fuel + 1 => do
      let (token, rest) ← next? cs
      return token :: (← scanWith fuel rest)

/-- The tokens of a text. Each takes at least one character. -/
def scan (cs : List Char) : Option (List Token) := scanWith cs.length cs

end Token

end RecordGuard.Json
