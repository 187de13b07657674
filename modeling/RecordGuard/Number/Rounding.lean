import RecordGuard.Number.Basic

/-!
# Rounding to a number

Every number that does not come in as bits is the nearest number to an exact rational, halves
going to the even neighbour. `ofRatio` is the single place where that rounding happens; integers,
decimals, products and quotients are all stated as ratios and handed to it.

A result whose magnitude reaches `2 ^ 1024` after rounding is an infinity. The packed magnitude of
`m * 2 ^ q` is `(q + 1074) * 2 ^ 52 + m`, for normal and subnormal numbers alike, so a carry out of
the coefficient moves into the exponent by itself.
-/

namespace RecordGuard

/-- `num / den` rounded to the nearest integer, halves to even. -/
def roundHalfEven (num den : Nat) : Nat :=
  let quotient := num / den
  let twice := 2 * (num % den)
  if twice < den then quotient
  else if den < twice then quotient + 1
  else quotient + quotient % 2

/-- The largest `e` with `2 ^ e ≤ num / den`, for positive `num` and `den`. -/
def binaryExponent (num den : Nat) : Int :=
  let estimate : Int := (num.log2 : Int) - den.log2
  let reached := den * Nat.pow 2 estimate.toNat ≤ num * Nat.pow 2 (-estimate).toNat
  if reached then estimate else estimate - 1

namespace Number

/-- The number nearest to `± num / den`, halves to the even coefficient. `den` is positive. -/
def ofRatio (negative : Bool) (num den : Nat) : Number :=
  if num = 0 then zero negative else
    let q : Int := max (-1074) (binaryExponent num den - 52)
    let m := roundHalfEven (num * Nat.pow 2 (-q).toNat) (den * Nat.pow 2 q.toNat)
    ofMagnitude negative (min ((q + 1074).toNat * fractionCount + m) infiniteMagnitude)

def ofInt (z : Int) : Number := ofRatio (decide (z < 0)) z.natAbs 1

def ofNat (n : Nat) : Number := ofRatio false n 1

/-- How many decimal digits a natural number has; zero has none. -/
def digitCount (n : Nat) : Nat := if n = 0 then 0 else (Nat.toDigits 10 n).length

/-- The number nearest to `± digits * 10 ^ exponent`.

Below `10 ^ -400` everything rounds to zero and from `10 ^ 400` on to infinity, so the power of ten
is only ever written out between those bounds. -/
def ofDecimal (negative : Bool) (digits : Nat) (exponent : Int) : Number :=
  if digits = 0 then zero negative else
    let top := exponent + digitCount digits
    if top < -400 then zero negative
    else if 400 < top then infinity negative
    else ofRatio negative (digits * Nat.pow 10 exponent.toNat) (Nat.pow 10 (-exponent).toNat)

/-! ## Arithmetic on finite numbers -/

/-- Absolute value of a finite number as a numerator over a positive denominator. -/
def ratio (n : Number) : Nat × Nat :=
  (n.significand * Nat.pow 2 n.scale.toNat, Nat.pow 2 (-n.scale).toNat)

def mul (a b : Number) : Number :=
  ofRatio (a.negative != b.negative) (a.ratio.1 * b.ratio.1) (a.ratio.2 * b.ratio.2)

def div (a b : Number) : Number :=
  ofRatio (a.negative != b.negative) (a.ratio.1 * b.ratio.2) (a.ratio.2 * b.ratio.1)

def neg (n : Number) : Number := ofMagnitude (!n.negative) n.magnitude

/-! ## Back to integers -/

/-- The integer a finite number denotes, if it denotes one. -/
def toInt? (n : Number) : Option Int :=
  if !n.isFinite then none else
    let (num, den) := n.ratio
    if num % den = 0 then
      some (if n.negative then -(num / den : Nat) else (num / den : Nat))
    else none

end Number

end RecordGuard
