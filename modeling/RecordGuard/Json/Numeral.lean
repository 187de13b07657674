import RecordGuard.Json.Basic

/-!
# Numerals

How a number is written in JSON and what it is read as. A numeral without fraction and exponent is
an integer as long as it fits into 64 bits. Every other numeral is a floating-point number, computed
from a coefficient and a power of ten: the coefficient takes digits while it fits into 64 bits and
further digits only shift it, and the result is that coefficient, rounded, times or over that power,
rounded again. The last bit may therefore differ from the nearest number to what is written. A
number too large to be finite is an error.
-/

namespace RecordGuard.Numeral

def digitValue (c : Char) : Nat := c.toNat - '0'.toNat

def startsWithDigit : List Char → Bool
  | c :: _ => c.isDigit
  | [] => false

/-- Digits taken into a coefficient as long as it stays below `2 ^ 64`: the coefficient, how many
digits were taken, and the rest of the text. -/
def absorb (coefficient taken : Nat) : List Char → Nat × Nat × List Char
  | [] => (coefficient, taken, [])
  | c :: rest =>
    let next := coefficient * 10 + digitValue c
    if c.isDigit && decide (next < UInt64.size) then absorb next (taken + 1) rest
    else (coefficient, taken, c :: rest)

/-- A number over a power of ten beyond the largest finite one, divided step by step until it is
zero or the rest of the power is small enough. -/
def divideByPower (n : Number) (exponent : Nat) : Nat → Number
  | 0 => n
  | steps + 1 =>
    if exponent ≤ 308 then n.div (Number.ofDecimal false 1 exponent)
    else if n.isZero then n
    else divideByPower (n.div (Number.ofDecimal false 1 308)) (exponent - 308) steps

/-- `coefficient * 10 ^ exponent` in rounded steps, unless it is too large. A coefficient of 64 bits
is zero after three divisions by the largest power of ten. -/
def scaled (negative : Bool) (coefficient : Nat) (exponent : Int) : Option JsonNumber :=
  let n := Number.ofNat coefficient
  let signed (n : Number) : JsonNumber := .float (if negative then n.neg else n)
  if exponent < 0 then some (signed (divideByPower n exponent.natAbs 4))
  else if n.isZero then some (signed n)
  else if 308 < exponent then none
  else
    let product := n.mul (Number.ofDecimal false 1 exponent)
    if product.isInfinite then none else some (signed product)

/-- The exponent part, its letter already read: an optional sign and at least one digit. -/
def exponent? (negative : Bool) (coefficient : Nat) (shift : Int) (cs : List Char) :
    Option (JsonNumber × List Char) := do
  let (downwards, cs) := match cs with
    | '+' :: rest => (false, rest)
    | '-' :: rest => (true, rest)
    | _ => (false, cs)
  let ds := cs.takeWhile Char.isDigit
  if ds.isEmpty then none else
    let e : Int := ds.foldl (fun n c => n * 10 + digitValue c) (0 : Nat)
    let n ← scaled negative coefficient (if downwards then shift - e else shift + e)
    return (n, cs.drop ds.length)

/-- What may follow the digits: an exponent part, or nothing. -/
def finish? (negative : Bool) (coefficient : Nat) (shift : Int) (cs : List Char) :
    Option (JsonNumber × List Char) :=
  match cs with
  | 'e' :: rest | 'E' :: rest => exponent? negative coefficient shift rest
  | cs => (scaled negative coefficient shift).map fun n => (n, cs)

/-- The fraction, its point already read: at least one digit. Digits that the coefficient cannot
take are passed over. -/
def fraction? (negative : Bool) (coefficient : Nat) (shift : Int) (cs : List Char) :
    Option (JsonNumber × List Char) :=
  if startsWithDigit cs then
    let (coefficient, taken, rest) := absorb coefficient 0 cs
    finish? negative coefficient (shift - taken) (rest.dropWhile Char.isDigit)
  else none

/-- An integer by its sign and a magnitude of 64 bits. A negative one has to fit into 64 bits with
its sign; zero keeps its sign only as a floating-point number. -/
def integer (negative : Bool) (magnitude : Nat) : JsonNumber :=
  if !negative then .integer magnitude
  else if magnitude = 0 ∨ UInt64.size / 2 < magnitude then .float (Number.ofNat magnitude).neg
  else .integer (-magnitude)

/-- A numeral, its sign already read, and the rest of the text. -/
def read? (negative : Bool) (cs : List Char) : Option (JsonNumber × List Char) :=
  if !startsWithDigit cs then none else
    let (coefficient, taken, rest) :=
      match cs with
      | '0' :: rest => (0, 1, rest)
      | cs => absorb 0 0 cs
    let more := rest.takeWhile Char.isDigit
    if taken = 1 ∧ coefficient = 0 ∧ !more.isEmpty then none else
      match rest.drop more.length with
      | '.' :: rest => fraction? negative coefficient more.length rest
      | 'e' :: rest | 'E' :: rest => exponent? negative coefficient more.length rest
      | rest =>
        if more.isEmpty then some (integer negative coefficient, rest)
        else (scaled negative coefficient more.length).map fun n => (n, rest)

end RecordGuard.Numeral
