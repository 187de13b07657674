/-!
# Numbers

The only numbers of the value model: binary floating point of 64 bits. A number *is* its bits, so
two numbers are the same object exactly when no observation can tell them apart. What comparison
calls equal is a different, coarser question (`Number.equal`): a NaN equals nothing, not even
itself, and the two zeros equal each other.

## Layout

One sign bit, eleven exponent bits and fifty-two fraction bits. `significand` and `scale` decode a
finite number into `±significand * 2 ^ scale`; `ofMagnitude` packs the sixty-three low bits back.
-/

namespace RecordGuard

structure Number where
  bits : UInt64
deriving DecidableEq, Inhabited

namespace Number

/-! ## Fields -/

/-- How many fractions there are: two to the power of fifty-two. -/
abbrev fractionCount : Nat := 4503599627370496

/-- How many magnitudes there are: two to the power of sixty-three. -/
abbrev magnitudeCount : Nat := 9223372036854775808

/-- The magnitude of the infinities: all exponent bits and no fraction. -/
abbrev infiniteMagnitude : Nat := 2047 * fractionCount

def negative (n : Number) : Bool := decide (magnitudeCount ≤ n.bits.toNat)

/-- Everything but the sign: for finite numbers and infinities, larger means farther from zero. -/
def magnitude (n : Number) : Nat := n.bits.toNat % magnitudeCount

/-- The biased exponent, eleven bits. -/
def exponentField (n : Number) : Nat := n.magnitude / fractionCount

/-- The fraction, fifty-two bits. -/
def fraction (n : Number) : Nat := n.magnitude % fractionCount

def isNaN (n : Number) : Bool := decide (infiniteMagnitude < n.magnitude)

def isInfinite (n : Number) : Bool := decide (n.magnitude = infiniteMagnitude)

def isFinite (n : Number) : Bool := decide (n.magnitude < infiniteMagnitude)

def isZero (n : Number) : Bool := decide (n.magnitude = 0)

/-- The integer coefficient of a finite number, with the leading bit that normal numbers imply. -/
def significand (n : Number) : Nat :=
  if n.exponentField = 0 then n.fraction else fractionCount + n.fraction

/-- The power of two that `significand` counts. -/
def scale (n : Number) : Int :=
  (max 1 n.exponentField : Nat) - 1075

/-! ## Packing -/

/-- The number with the given sign and the given sixty-three low bits. -/
def ofMagnitude (negative : Bool) (magnitude : Nat) : Number :=
  ⟨UInt64.ofNat (magnitude + if negative then magnitudeCount else 0)⟩

def zero (negative : Bool) : Number := ofMagnitude negative 0

def infinity (negative : Bool) : Number := ofMagnitude negative infiniteMagnitude

/-- The quiet NaN without payload. -/
def nan : Number := ofMagnitude false (infiniteMagnitude + fractionCount / 2)

/-! ## Comparison -/

/-- Numeric equality: no NaN equals anything, and the zeros are equal whatever their signs. -/
def equal (a b : Number) : Bool :=
  !a.isNaN && !b.isNaN && (a.bits == b.bits || (a.isZero && b.isZero))

/-- The position of a number that is not NaN on the ordered line. -/
def rank (n : Number) : Int :=
  if n.negative then -n.magnitude else n.magnitude

/-- Numeric order; a NaN compares with nothing. -/
def le (a b : Number) : Bool :=
  !a.isNaN && !b.isNaN && decide (a.rank ≤ b.rank)

end Number

end RecordGuard
