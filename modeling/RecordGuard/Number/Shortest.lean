import RecordGuard.Number.Basic

/-!
# Decimal text of a number

A finite number is written with the fewest decimal digits that read back to it; of several such
texts the one nearest to its exact value, and of two equally near ones the one that a `Tie` names.
There are two layouts: positional whatever the size (`Number.chars`), which is how values show, and
one that turns to an exponent for very large and very small numbers (`Number.scientificChars`), for
the errors of document readers.

## How the digits are found

All reals between the midpoints to the two neighbouring numbers round to the number, the midpoints
included when the coefficient is even. With `n` digits the candidates are the two multiples of
`10 ^ (exponent - n)` around the value; the first `n` for which one of them lies between the
midpoints gives the digits. Everything is exact arithmetic on naturals: the value and both
midpoints are counted in quarters of `2 ^ scale`.
-/

namespace RecordGuard

/-- A decimal `digits * 10 ^ exponent`. -/
structure Decimal where
  digits : Nat
  exponent : Int
deriving DecidableEq

/-- Which of two equally near decimals is taken. -/
inductive Tie where
  | larger
  | evenDigit
deriving DecidableEq

/-- `a * 10 ^ i` against `n * 2 ^ j`, exactly. -/
def compareScaled (a : Nat) (i : Int) (n : Nat) (j : Int) : Ordering :=
  compare (a * Nat.pow 10 i.toNat * Nat.pow 2 (-j).toNat)
    (n * Nat.pow 2 j.toNat * Nat.pow 10 (-i).toNat)

namespace Number

/-- The midpoint to the next number below, in quarters of `2 ^ scale`. Just above a power of two
the gap below is half the gap above. -/
def lowerMidpoint (n : Number) : Nat :=
  if n.fraction = 0 && decide (1 < n.exponentField) then 4 * n.significand - 1
  else 4 * n.significand - 2

/-- The midpoint to the next number above, in quarters of `2 ^ scale`. -/
def upperMidpoint (n : Number) : Nat := 4 * n.significand + 2

/-- Whether a decimal rounds to the positive finite number `n`. -/
def readsBack (n : Number) (d : Decimal) : Bool :=
  let closed := n.significand % 2 == 0
  let low := compareScaled d.digits d.exponent n.lowerMidpoint (n.scale - 2)
  let high := compareScaled d.digits d.exponent n.upperMidpoint (n.scale - 2)
  (low == .gt || (closed && low == .eq)) && (high == .lt || (closed && high == .eq))

/-- The least `k` with `n < 10 ^ k`, searched upwards from a bound that is low enough. -/
def decimalExponentFrom (n : Number) (k : Int) : Nat → Int
  | 0 => k
  | fuel + 1 =>
    if compareScaled 1 k n.significand n.scale == .gt then k
    else decimalExponentFrom n (k + 1) fuel

/-- The least `k` with `n < 10 ^ k`, for a positive finite `n`.

With `2 ^ e ≤ n < 2 ^ (e + 1)` it is at most two above `e` times the decimal logarithm of two,
rounded down. -/
def decimalExponent (n : Number) : Int :=
  let e : Int := n.scale + n.significand.log2
  decimalExponentFrom n (e * 30103 / 100000 - 1) 4

/-- `n / 10 ^ position`, rounded down. -/
def floorAt (n : Number) (position : Int) : Nat :=
  (n.significand * Nat.pow 2 n.scale.toNat * Nat.pow 10 (-position).toNat)
    / (Nat.pow 2 (-n.scale).toNat * Nat.pow 10 position.toNat)

/-- The candidate with last digit at `position` that reads back: of two the nearer, of two equally
near ones as `tie` says. -/
def candidate? (n : Number) (tie : Tie) (position : Int) : Option Decimal :=
  let below : Decimal := ⟨n.floorAt position, position⟩
  let above : Decimal := ⟨n.floorAt position + 1, position⟩
  match n.readsBack below, n.readsBack above with
  | true, true =>
    match compareScaled (below.digits + above.digits) position (2 * n.significand) n.scale with
    | .gt => some below
    | .lt => some above
    | .eq => some (if tie = .evenDigit ∧ below.digits % 2 = 0 then below else above)
  | true, false => some below
  | false, true => some above
  | false, false => none

/-- The exact value as a decimal, for a positive finite number. -/
def exactDecimal (n : Number) : Decimal :=
  if 0 ≤ n.scale then ⟨n.significand * Nat.pow 2 n.scale.toNat, 0⟩
  else ⟨n.significand * Nat.pow 5 (-n.scale).toNat, n.scale⟩

/-- The shortest decimal that reads back to a positive finite number. Seventeen digits always
suffice, so the exact value is never needed. -/
def shortest (n : Number) (tie : Tie) : Decimal :=
  let k := n.decimalExponent
  ((List.range 17).findSome? fun (i : Nat) => n.candidate? tie (k - (i + 1))).getD n.exactDecimal

end Number

/-! ## Layout -/

/-- A digit string without the zeros at its end. -/
def dropTrailingZeros (cs : List Char) : List Char :=
  (cs.reverse.dropWhile (· == '0')).reverse

/-- A decimal in positional notation: no exponent, no point unless a digit other than zero follows
it, and a zero before a leading point. -/
def Decimal.positional (d : Decimal) : List Char :=
  let cs := Nat.toDigits 10 d.digits
  if 0 ≤ d.exponent then cs ++ List.replicate d.exponent.toNat '0'
  else
    let places := (-d.exponent).toNat
    let padded := List.replicate (places + 1 - cs.length) '0' ++ cs
    let whole := padded.take (padded.length - places)
    let part := dropTrailingZeros (padded.drop (padded.length - places))
    if part.isEmpty then whole else whole ++ '.' :: part

/-- A decimal with its point among the digits as long as it lies within sixteen digits before the
number's end or five behind its beginning, and else with an exponent, which always has a sign. There
is always a point or an exponent. -/
def Decimal.scientific (d : Decimal) : List Char :=
  let cs := dropTrailingZeros (Nat.toDigits 10 d.digits)
  let top := d.exponent + (Nat.toDigits 10 d.digits).length
  if 0 < top ∧ top ≤ 16 then
    let before := top.toNat
    if cs.length ≤ before then cs ++ List.replicate (before - cs.length) '0' ++ ['.', '0']
    else cs.take before ++ '.' :: cs.drop before
  else if -5 < top ∧ top ≤ 0 then '0' :: '.' :: List.replicate top.natAbs '0' ++ cs
  else
    let power := (if 0 < top then ['+'] else []) ++ (toString (top - 1)).toList
    match cs with
    | first :: [] => first :: 'e' :: power
    | first :: rest => first :: '.' :: rest ++ 'e' :: power
    | [] => []

/-- The text of a number: `NaN`, `inf`, or the shortest positional decimal, with the sign in front
of every negative number, zero included. -/
def Number.chars (n : Number) : List Char :=
  if n.isNaN then ['N', 'a', 'N'] else
    let unsigned :=
      if n.isInfinite then ['i', 'n', 'f']
      else if n.isZero then ['0']
      else (n.shortest .larger).positional
    if n.negative then '-' :: unsigned else unsigned

/-- The text of a finite number in the errors of document readers. -/
def Number.scientificChars (n : Number) : List Char :=
  let unsigned := if n.isZero then ['0', '.', '0'] else (n.shortest .evenDigit).scientific
  if n.negative then '-' :: unsigned else unsigned

end RecordGuard
