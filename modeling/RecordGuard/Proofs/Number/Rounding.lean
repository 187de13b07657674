import Mathlib.Algebra.Order.Field.Power
import Mathlib.Algebra.Order.Field.Rat
import Mathlib.Data.Nat.Cast.Order.Ring
import Mathlib.Tactic.FieldSimp
import Mathlib.Tactic.Positivity
import Mathlib.Tactic.Ring
import RecordGuard.Number.Shortest

/-!
# What rounds to a number

The decimals that read back to a positive finite number are those between the midpoints to its two
neighbours. These intervals lie side by side: of two numbers the smaller one's ends before the larger
one's begins, or where it begins, and then an end that both share belongs to one of them at most. So
no decimal reads back to two numbers.

* **`compareScaled_eq`** — the comparison on naturals is the one of rationals.
* **`Number.lower`**, **`Number.upper`**, **`Number.readsBack_iff`** — the interval.
* **`Number.upper_le_lower`** — the intervals of two numbers lie side by side.
* **`Number.magnitude_eq_of_readsBack`** — no decimal reads back to two numbers.
* **`Number.readsBack_shortest`** — the shortest decimal of a number reads back to it.
-/

namespace RecordGuard

/-! ## Decimals as rationals -/

/-- What a decimal denotes. -/
def Decimal.value (d : Decimal) : ℚ := d.digits * 10 ^ d.exponent

/-- The negative part of an exponent, multiplied out. -/
theorem zpow_mul_pow_toNat {b : ℚ} (hb : b ≠ 0) (i : Int) : b ^ i * b ^ (-i).toNat = b ^ i.toNat := by
  rw [← zpow_natCast, ← zpow_natCast, ← zpow_add₀ hb]
  congr 1
  omega

/-- Multiplying out the negative powers does not change the comparison. -/
theorem compareScaled_eq (a : Nat) (i : Int) (n : Nat) (j : Int) :
    compareScaled a i n j = compare ((a : ℚ) * 10 ^ i) (n * 2 ^ j) := by
  have hfactor : (0 : ℚ) < 10 ^ (-i).toNat * 2 ^ (-j).toNat := by positivity
  have hleft : ((a * Nat.pow 10 i.toNat * Nat.pow 2 (-j).toNat : Nat) : ℚ) =
      (a : ℚ) * 10 ^ i * (10 ^ (-i).toNat * 2 ^ (-j).toNat) := by
    push_cast [Nat.pow_eq, ← zpow_mul_pow_toNat (show (10 : ℚ) ≠ 0 by decide) i]
    ring
  have hright : ((n * Nat.pow 2 j.toNat * Nat.pow 10 (-i).toNat : Nat) : ℚ) =
      (n : ℚ) * 2 ^ j * (10 ^ (-i).toNat * 2 ^ (-j).toNat) := by
    push_cast [Nat.pow_eq, ← zpow_mul_pow_toNat (show (2 : ℚ) ≠ 0 by decide) j]
    ring
  rw [compareScaled, ← cmp_eq_compare, ← cmp_eq_compare,
    ← (Nat.strictMono_cast (α := ℚ)).cmp_map_eq, hleft, hright,
    (strictMono_mul_right_of_pos hfactor).cmp_map_eq]

namespace Number

variable {a b n : Number} {d : Decimal}

/-! ## Coefficients -/

theorem magnitude_eq (n : Number) : n.magnitude = n.exponentField * fractionCount + n.fraction :=
  (Nat.div_add_mod' n.magnitude fractionCount).symm

theorem fraction_lt (n : Number) : n.fraction < fractionCount := Nat.mod_lt _ (by decide)

theorem significand_of_subnormal (h : n.exponentField = 0) : n.significand = n.fraction := if_pos h

theorem significand_of_normal (h : n.exponentField ≠ 0) :
    n.significand = fractionCount + n.fraction :=
  if_neg h

/-- Only zero has a coefficient of zero. -/
theorem significand_pos (h : n.isZero = false) : 0 < n.significand := by
  have hmagnitude : n.magnitude ≠ 0 := of_decide_eq_false h
  by_cases hexponent : n.exponentField = 0
  · rw [magnitude_eq, hexponent, Nat.zero_mul, Nat.zero_add] at hmagnitude
    rw [significand_of_subnormal hexponent]
    exact Nat.pos_of_ne_zero hmagnitude
  · rw [significand_of_normal hexponent]
    exact Nat.add_pos_left (by decide) _

/-- A coefficient has 53 bits. -/
theorem significand_lt (n : Number) : n.significand < 2 * fractionCount := by
  have hfraction := n.fraction_lt
  by_cases hexponent : n.exponentField = 0
  · rw [significand_of_subnormal hexponent]
    omega
  · rw [significand_of_normal hexponent]
    omega

theorem four_significand_sub_two_le (n : Number) : 4 * n.significand - 2 ≤ n.lowerMidpoint := by
  rw [lowerMidpoint]
  split <;> omega

theorem lowerMidpoint_of_fraction (h : n.fraction ≠ 0) : n.lowerMidpoint = 4 * n.significand - 2 := by
  simp [lowerMidpoint, h]

theorem lowerMidpoint_of_exponent (h : n.exponentField ≤ 1) :
    n.lowerMidpoint = 4 * n.significand - 2 := by
  have hexponent : ¬ 1 < n.exponentField := by omega
  simp [lowerMidpoint, hexponent]

/-! ## The interval -/

/-- Half way to the next number below. -/
def lower (n : Number) : ℚ := n.lowerMidpoint * 2 ^ (n.scale - 2)

/-- Half way to the next number above. -/
def upper (n : Number) : ℚ := n.upperMidpoint * 2 ^ (n.scale - 2)

/-- A decimal reads back to a number if it lies between the midpoints, and on one only if the
coefficient is even. -/
theorem readsBack_iff :
    n.readsBack d = true ↔ n.lower ≤ d.value ∧ d.value ≤ n.upper ∧
      (n.significand % 2 = 1 → d.value ≠ n.lower ∧ d.value ≠ n.upper) := by
  have hlow : compareScaled d.digits d.exponent n.lowerMidpoint (n.scale - 2) =
      compare d.value n.lower :=
    compareScaled_eq _ _ _ _
  have hhigh : compareScaled d.digits d.exponent n.upperMidpoint (n.scale - 2) =
      compare d.value n.upper :=
    compareScaled_eq _ _ _ _
  rw [readsBack, hlow, hhigh]
  simp only [Bool.and_eq_true, Bool.or_eq_true, beq_iff_eq, compare_gt_iff_gt, compare_lt_iff_lt,
    compare_eq_iff_eq]
  -- with an even coefficient the ends belong to the interval, with an odd one they do not
  rcases Nat.mod_two_eq_zero_or_one n.significand with heven | hodd
  · simp [heven, le_iff_lt_or_eq, eq_comm]
  · simp [hodd, le_iff_lt_or_eq]
    grind

/-- The interval of a number that is not zero is positive. -/
theorem lower_pos (h : n.isZero = false) : 0 < n.lower := by
  have hsignificand := significand_pos h
  have hmidpoint : 0 < n.lowerMidpoint := by
    have := four_significand_sub_two_le n
    omega
  rw [lower]
  positivity

/-! ## Side by side -/

theorem exponentField_le (h : a.magnitude < b.magnitude) : a.exponentField ≤ b.exponentField :=
  Nat.div_le_div_right h.le

/-- Numbers of one scale: the larger coefficient belongs to the larger magnitude, and the midpoint
below it lies in the middle. -/
theorem significand_lt_of_scale_eq (h : a.magnitude < b.magnitude) (hscale : b.scale = a.scale) :
    a.significand < b.significand ∧ b.lowerMidpoint = 4 * b.significand - 2 := by
  have hfraction := a.fraction_lt
  have hexponents := exponentField_le h
  rw [magnitude_eq, magnitude_eq] at h
  by_cases hequal : a.exponentField = b.exponentField
  · rw [hequal] at h
    have hfractions : a.fraction < b.fraction := Nat.lt_of_add_lt_add_left h
    refine ⟨?_, lowerMidpoint_of_fraction (by omega)⟩
    rw [significand, significand, hequal]
    split <;> omega
  · -- subnormal numbers and the smallest normal ones have the same scale
    have hsmall : a.exponentField = 0 ∧ b.exponentField = 1 := by
      rw [scale, scale] at hscale
      omega
    refine ⟨?_, lowerMidpoint_of_exponent (by omega)⟩
    rw [significand_of_subnormal hsmall.1, significand_of_normal (by omega)]
    omega

/-- A number of a scale that is not the least. -/
theorem le_lowerMidpoint_of_scale_lt (h : a.scale < b.scale) :
    4 * fractionCount - 1 ≤ b.lowerMidpoint := by
  have hexponent : 1 < b.exponentField := by
    rw [scale, scale] at h
    omega
  have hsignificand := significand_of_normal (n := b) (by omega)
  rw [lowerMidpoint]
  split
  · omega
  · next hfraction =>
    have hfraction : b.fraction ≠ 0 := fun hzero => hfraction (by simp [hzero, hexponent])
    omega

/-- Both midpoints counted in quarters of the smaller number's scale. -/
theorem upperMidpoint_le (h : a.magnitude < b.magnitude) {gap : Nat}
    (hgap : b.scale = a.scale + gap) :
    a.upperMidpoint ≤ b.lowerMidpoint * 2 ^ gap ∧
      (a.upperMidpoint = b.lowerMidpoint * 2 ^ gap →
        a.significand % 2 = 1 ∨ b.significand % 2 = 1) := by
  rw [upperMidpoint]
  -- numbers of one scale, or a power of two between them
  cases gap with
  | zero =>
    obtain ⟨hsignificands, hmidpoint⟩ := significand_lt_of_scale_eq h (by simpa using hgap)
    rw [hmidpoint]
    omega
  | succ k =>
    have hmidpoint := le_lowerMidpoint_of_scale_lt (a := a) (b := b) (by omega)
    have hsignificand := a.significand_lt
    have hpower : 2 ≤ 2 ^ (k + 1) := Nat.le_self_pow (by omega) 2
    have hscaled : (4 * fractionCount - 1) * 2 ≤ b.lowerMidpoint * 2 ^ (k + 1) :=
      Nat.mul_le_mul hmidpoint hpower
    have hodd : (2 * fractionCount - 1) % 2 = 1 := by decide
    -- only the last coefficient before a power of two reaches the midpoint
    refine ⟨by omega, fun hequal => .inl ?_⟩
    have hlast : a.significand = 2 * fractionCount - 1 := by omega
    rw [hlast, hodd]

/-- **The intervals of two numbers lie side by side**, and no end of two intervals belongs to both. -/
theorem upper_le_lower (h : a.magnitude < b.magnitude) :
    a.upper ≤ b.lower ∧
      (a.upper = b.lower → a.significand % 2 = 1 ∨ b.significand % 2 = 1) := by
  have hscales : a.scale ≤ b.scale := by
    have hexponents := exponentField_le h
    rw [scale, scale]
    omega
  obtain ⟨gap, hgap⟩ := Int.le.dest hscales
  obtain ⟨hle, hequal⟩ := upperMidpoint_le h hgap.symm
  have hunit : (0 : ℚ) < 2 ^ (a.scale - 2) := by positivity
  have hlower : b.lower = (b.lowerMidpoint * 2 ^ gap : Nat) * 2 ^ (a.scale - 2) := by
    rw [lower, ← hgap, show a.scale + gap - 2 = gap + (a.scale - 2) by omega,
      zpow_add₀ (by decide), zpow_natCast]
    push_cast
    ring
  rw [hlower, upper]
  refine ⟨mul_le_mul_of_nonneg_right (by exact_mod_cast hle) hunit.le, fun h => hequal ?_⟩
  exact_mod_cast mul_right_cancel₀ hunit.ne' h

/-- No decimal reads back to two magnitudes. -/
theorem not_readsBack_of_magnitude_lt (h : a.magnitude < b.magnitude)
    (ha : a.readsBack d = true) : b.readsBack d = false := by
  refine Bool.eq_false_iff.mpr fun hb => ?_
  obtain ⟨-, hupper, hodd⟩ := readsBack_iff.mp ha
  obtain ⟨hlower, -, hodd'⟩ := readsBack_iff.mp hb
  obtain ⟨hle, hshared⟩ := upper_le_lower h
  have heq : a.upper = b.lower := le_antisymm hle (hlower.trans hupper)
  have hvalue : d.value = a.upper := le_antisymm hupper (hle.trans hlower)
  rcases hshared heq with ha | hb
  · exact (hodd ha).2 hvalue
  · exact (hodd' hb).1 (hvalue.trans heq)

/-- **Numbers to which decimals of one value read back have one magnitude.** -/
theorem magnitude_eq_of_readsBack {e : Decimal} (ha : a.readsBack d = true)
    (hb : b.readsBack e = true) (hvalue : d.value = e.value) : a.magnitude = b.magnitude := by
  have hb : b.readsBack d = true := by rwa [readsBack_iff, hvalue, ← readsBack_iff]
  rcases Nat.lt_trichotomy a.magnitude b.magnitude with h | h | h
  · rw [not_readsBack_of_magnitude_lt h ha] at hb
    cases hb
  · exact h
  · rw [not_readsBack_of_magnitude_lt h hb] at ha
    cases ha

/-! ## The shortest decimal -/

/-- A candidate is taken only if it reads back. -/
theorem readsBack_of_candidate? {tie : Tie} {position : Int}
    (h : n.candidate? tie position = some d) : n.readsBack d = true := by
  rw [candidate?] at h
  dsimp only at h
  -- both neighbours read back, one of them, or none
  split at h
  · next hbelow habove =>
    split at h
    · cases h; exact hbelow
    · cases h; exact habove
    · split at h
      · cases h; exact hbelow
      · cases h; exact habove
  · next hbelow _ => cases h; exact hbelow
  · next _ habove => cases h; exact habove
  · cases h

/-- The exact decimal denotes the number, in quarters of its unit. -/
theorem value_exactDecimal (n : Number) :
    n.exactDecimal.value = (4 * n.significand : Nat) * 2 ^ (n.scale - 2) := by
  have hquarters : ((4 * n.significand : Nat) : ℚ) * 2 ^ (n.scale - 2) =
      n.significand * 2 ^ n.scale := by
    rw [zpow_sub₀ (by decide)]
    push_cast
    ring
  rw [hquarters, exactDecimal]
  split
  · next hscale =>
    rw [Decimal.value]
    push_cast [Nat.pow_eq, ← zpow_natCast, Int.toNat_of_nonneg hscale]
    ring
  · next hscale =>
    -- five to the power of the places, over ten to that power, is two to the negative power
    have hplaces : ((-n.scale).toNat : Int) = -n.scale := by omega
    have hten : (10 : ℚ) ^ n.scale = 2 ^ n.scale * 5 ^ n.scale := by
      rw [← mul_zpow]
      norm_num
    rw [Decimal.value, hten]
    push_cast [Nat.pow_eq, ← zpow_natCast, hplaces, zpow_neg]
    field_simp

/-- So it lies strictly between the midpoints. -/
theorem readsBack_exactDecimal (h : n.isZero = false) : n.readsBack n.exactDecimal = true := by
  have hsignificand := significand_pos h
  have hunit : (0 : ℚ) < 2 ^ (n.scale - 2) := by positivity
  have hlow : n.lowerMidpoint < 4 * n.significand := by
    rw [lowerMidpoint]
    split <;> omega
  have hhigh : 4 * n.significand < n.upperMidpoint := by
    rw [upperMidpoint]
    omega
  have hlower : n.lower < n.exactDecimal.value := by
    rw [value_exactDecimal, lower]
    exact mul_lt_mul_of_pos_right (by exact_mod_cast hlow) hunit
  have hupper : n.exactDecimal.value < n.upper := by
    rw [value_exactDecimal, upper]
    exact mul_lt_mul_of_pos_right (by exact_mod_cast hhigh) hunit
  exact readsBack_iff.mpr ⟨hlower.le, hupper.le, fun _ => ⟨hlower.ne', hupper.ne⟩⟩

/-- **The shortest decimal reads back.** -/
theorem readsBack_shortest (h : n.isZero = false) (tie : Tie) :
    n.readsBack (n.shortest tie) = true := by
  rw [shortest]
  -- where no shorter one reads back the exact one is shown
  cases hfound : (List.range 17).findSome? fun (i : Nat) =>
      n.candidate? tie (n.decimalExponent - (i + 1)) with
  | none => exact readsBack_exactDecimal h
  | some d =>
    obtain ⟨i, -, hcandidate⟩ := List.exists_of_findSome?_eq_some hfound
    exact readsBack_of_candidate? hcandidate

end Number

end RecordGuard
