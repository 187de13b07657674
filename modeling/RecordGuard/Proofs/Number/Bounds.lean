import RecordGuard.Number.Rounding
import RecordGuard.Proofs.Number.Rounding

/-!
# Rounding keeps to powers of two

What is at most a power of two is rounded to a number that is at most this power, and what is at
least one to a number of at least one. So an integer of 64 bits is a finite number, and such a number
over one of at least one is finite again.

* **`roundHalfEven_le`**, **`le_roundHalfEven`** — rounding to an integer passes over no integer.
* **`two_pow_binaryExponent_le`**, **`lt_two_pow_binaryExponent`** — the exponent in front of a ratio.
* **`Number.magnitude_ofRatio_le`**, **`Number.le_magnitude_ofRatio`** — rounding a ratio.
* **`Number.ratio_le_of_magnitude_le`**, **`Number.le_ratio_of_le_magnitude`** — what a number in such
  bounds denotes.
* **`Number.isFinite_ofInt`**, **`Number.magnitude_div_le`** — what follows for integers and quotients.
-/

namespace RecordGuard

variable {num den : Nat}

/-! ## To integers -/

/-- **Rounding passes over no integer from below.** -/
theorem roundHalfEven_le (hden : 0 < den) {n : Nat} (h : num ≤ n * den) :
    roundHalfEven num den ≤ n := by
  have hfloor : num / den ≤ n := Nat.div_le_of_le_mul (by rwa [Nat.mul_comm])
  unfold roundHalfEven
  dsimp only
  rcases Nat.lt_or_eq_of_le hfloor with hlt | heq
  · split_ifs <;> omega
  · -- nothing is left over to round up
    have hrest : num % den = 0 := by
      have hsplit := Nat.div_add_mod num den
      rw [heq, Nat.mul_comm] at hsplit
      omega
    rw [hrest, if_pos (by omega)]
    exact hfloor

/-- **Nor from above.** -/
theorem le_roundHalfEven (hden : 0 < den) {n : Nat} (h : n * den ≤ num) :
    n ≤ roundHalfEven num den := by
  have hfloor : n ≤ num / den := (Nat.le_div_iff_mul_le hden).mpr h
  unfold roundHalfEven
  dsimp only
  split_ifs <;> omega

/-! ## The exponent of a ratio -/

theorem two_pow_mul_le {a b c d : Nat} (h : a + b ≤ c + d) : 2 ^ a * 2 ^ b ≤ 2 ^ c * 2 ^ d := by
  rw [← Nat.pow_add, ← Nat.pow_add]
  exact Nat.pow_le_pow_right (by decide) h

/-- **The exponent in front of a ratio is low enough**: two to its power is at most the ratio. -/
theorem two_pow_binaryExponent_le (hnum : 0 < num) (den : Nat) :
    den * 2 ^ (binaryExponent num den).toNat ≤ num * 2 ^ (-binaryExponent num den).toNat := by
  unfold binaryExponent
  dsimp only [Nat.pow_eq]
  split_ifs with hreached
  · exact hreached
  · -- one less than the difference of the logarithms is always low enough
    have hlow : 2 ^ num.log2 ≤ num := Nat.log2_self_le (by omega)
    have hhigh : den < 2 ^ (den.log2 + 1) := Nat.lt_log2_self
    generalize num.log2 = a at *
    generalize den.log2 = b at *
    calc den * 2 ^ ((a : Int) - b - 1).toNat
        ≤ 2 ^ (b + 1) * 2 ^ ((a : Int) - b - 1).toNat := Nat.mul_le_mul_right _ hhigh.le
      _ ≤ 2 ^ a * 2 ^ (-((a : Int) - b - 1)).toNat := two_pow_mul_le (by omega)
      _ ≤ num * 2 ^ (-((a : Int) - b - 1)).toNat := Nat.mul_le_mul_right _ hlow

/-- **And the next one is too high.** -/
theorem lt_two_pow_binaryExponent (num : Nat) (hden : 0 < den) :
    num * 2 ^ (-(binaryExponent num den + 1)).toNat <
      den * 2 ^ (binaryExponent num den + 1).toNat := by
  unfold binaryExponent
  dsimp only [Nat.pow_eq]
  split_ifs with hreached
  · -- one more than the difference of the logarithms is always too high
    have hhigh : num < 2 ^ (num.log2 + 1) := Nat.lt_log2_self
    have hlow : 2 ^ den.log2 ≤ den := Nat.log2_self_le (by omega)
    generalize num.log2 = a at *
    generalize den.log2 = b at *
    calc num * 2 ^ (-((a : Int) - b + 1)).toNat
        < 2 ^ (a + 1) * 2 ^ (-((a : Int) - b + 1)).toNat :=
          Nat.mul_lt_mul_of_pos_right hhigh (Nat.two_pow_pos _)
      _ ≤ 2 ^ b * 2 ^ ((a : Int) - b + 1).toNat := two_pow_mul_le (by omega)
      _ ≤ den * 2 ^ ((a : Int) - b + 1).toNat := Nat.mul_le_mul_right _ hlow
  · rw [Int.sub_add_cancel]
    exact Nat.lt_of_not_le hreached

namespace Number

/-! ## Magnitudes -/

/-- A number made of a sign and a magnitude has that magnitude. -/
theorem magnitude_ofMagnitude (negative : Bool) {m : Nat} (h : m < magnitudeCount) :
    (ofMagnitude negative m).magnitude = m := by
  have hbits : (m + if negative then magnitudeCount else 0) < UInt64.size := by
    simp only [magnitudeCount, UInt64.size] at *
    split <;> omega
  rw [magnitude, ofMagnitude, UInt64.toNat_ofNat_of_lt' hbits]
  split
  · rw [Nat.add_mod_right, Nat.mod_eq_of_lt h]
  · exact Nat.mod_eq_of_lt h

theorem isFinite_iff {n : Number} : n.isFinite = true ↔ n.magnitude < infiniteMagnitude :=
  decide_eq_true_iff

theorem isNaN_of_isFinite {n : Number} (h : n.isFinite = true) : n.isNaN = false :=
  decide_eq_false (Nat.not_lt.mpr (isFinite_iff.mp h).le)

theorem isInfinite_of_isFinite {n : Number} (h : n.isFinite = true) : n.isInfinite = false :=
  decide_eq_false (isFinite_iff.mp h).ne

@[simp] theorem magnitude_neg (n : Number) : n.neg.magnitude = n.magnitude :=
  magnitude_ofMagnitude _ (Nat.mod_lt _ (by decide))

@[simp] theorem isFinite_neg (n : Number) : n.neg.isFinite = n.isFinite := by
  rw [isFinite, isFinite, magnitude_neg]

/-! ## Rounding a ratio -/

/-- The magnitude of a ratio: its exponent, no less than the least, and its coefficient rounded. -/
theorem magnitude_ofRatio (negative : Bool) (hnum : 0 < num) (den : Nat) :
    (ofRatio negative num den).magnitude =
      let q : Int := max (-1074) (binaryExponent num den - 52)
      min ((q + 1074).toNat * fractionCount +
        roundHalfEven (num * 2 ^ (-q).toNat) (den * 2 ^ q.toNat)) infiniteMagnitude := by
  rw [ofRatio, if_neg (Nat.pos_iff_ne_zero.mp hnum)]
  exact magnitude_ofMagnitude _ (Nat.lt_of_le_of_lt (Nat.min_le_right _ _) (by decide))

/-- Rounding gives no NaN. -/
theorem magnitude_ofRatio_le_infinite (negative : Bool) (num den : Nat) :
    (ofRatio negative num den).magnitude ≤ infiniteMagnitude := by
  rcases Nat.eq_zero_or_pos num with rfl | hnum
  · rw [ofRatio, if_pos rfl, zero, magnitude_ofMagnitude _ (by decide)]
    decide
  · rw [magnitude_ofRatio negative hnum]
    exact Nat.min_le_right _ _

/-- A ratio that is at most `2 ^ (b - a)`, multiplied by `2 ^ (c - d)`. -/
theorem scaled_le {a b c d n : Nat} (h : num * 2 ^ a ≤ den * 2 ^ b) (hexponents : b + c ≤ a + n + d) :
    num * 2 ^ c ≤ 2 ^ n * (den * 2 ^ d) := by
  refine Nat.le_of_mul_le_mul_right ?_ (Nat.two_pow_pos a)
  calc num * 2 ^ c * 2 ^ a = num * 2 ^ a * 2 ^ c := Nat.mul_right_comm ..
    _ ≤ den * 2 ^ b * 2 ^ c := Nat.mul_le_mul_right _ h
    _ = den * 2 ^ (b + c) := by rw [Nat.mul_assoc, Nat.pow_add]
    _ ≤ den * 2 ^ (a + n + d) := Nat.mul_le_mul_left _ (Nat.pow_le_pow_right (by decide) hexponents)
    _ = 2 ^ n * (den * 2 ^ d) * 2 ^ a := by
      rw [Nat.pow_add, Nat.pow_add]
      ac_rfl

/-- A ratio that is at least `2 ^ (b - a)`, multiplied by `2 ^ (c - d)`. -/
theorem le_scaled {a b c d n : Nat} (h : den * 2 ^ b ≤ num * 2 ^ a) (hexponents : a + n + d ≤ b + c) :
    2 ^ n * (den * 2 ^ d) ≤ num * 2 ^ c := by
  refine Nat.le_of_mul_le_mul_right ?_ (Nat.two_pow_pos a)
  calc 2 ^ n * (den * 2 ^ d) * 2 ^ a = den * 2 ^ (a + n + d) := by
        rw [Nat.pow_add, Nat.pow_add]
        ac_rfl
    _ ≤ den * 2 ^ (b + c) := Nat.mul_le_mul_left _ (Nat.pow_le_pow_right (by decide) hexponents)
    _ = den * 2 ^ b * 2 ^ c := by rw [Nat.mul_assoc, Nat.pow_add]
    _ ≤ num * 2 ^ a * 2 ^ c := Nat.mul_le_mul_right _ h
    _ = num * 2 ^ c * 2 ^ a := Nat.mul_right_comm ..

/-- **What is at most a power of two is rounded to a number that is at most this power.** -/
theorem magnitude_ofRatio_le (negative : Bool) (hden : 0 < den) {k : Nat} (h : num ≤ 2 ^ k * den) :
    (ofRatio negative num den).magnitude ≤ (k + 1023) * fractionCount := by
  rcases Nat.eq_zero_or_pos num with rfl | hnum
  · rw [ofRatio, if_pos rfl, zero, magnitude_ofMagnitude _ (by decide)]
    exact Nat.zero_le _
  have hlow := two_pow_binaryExponent_le hnum den
  have hhigh := lt_two_pow_binaryExponent num hden
  rw [magnitude_ofRatio negative hnum]
  generalize binaryExponent num den = e at *
  refine Nat.le_trans (Nat.min_le_left _ _) ?_
  have hratio : num * 2 ^ 0 ≤ den * 2 ^ k := by rwa [Nat.pow_zero, Nat.mul_one, Nat.mul_comm]
  -- the exponent of the ratio is no higher than that of the bound
  have hexponent : e ≤ k := by
    have hscaled : den * 2 ^ e.toNat ≤ den * 2 ^ (k + (-e).toNat) :=
      calc den * 2 ^ e.toNat ≤ num * 2 ^ (-e).toNat := hlow
        _ ≤ 2 ^ k * den * 2 ^ (-e).toNat := Nat.mul_le_mul_right _ h
        _ = den * 2 ^ (k + (-e).toNat) := by rw [Nat.pow_add, Nat.mul_comm (2 ^ k), Nat.mul_assoc]
    have hpowers := Nat.le_of_mul_le_mul_left hscaled hden
    rw [Nat.pow_le_pow_iff_right (by decide)] at hpowers
    omega
  generalize hq : max (-1074) (e - 52) = q
  have hden' : 0 < den * 2 ^ q.toNat := Nat.mul_pos hden (Nat.two_pow_pos _)
  rcases Int.lt_or_eq_of_le hexponent with hbelow | rfl
  · have hround := roundHalfEven_le hden' (scaled_le (c := (-q).toNat) (n := 53) hhigh.le (by omega))
    simp only [fractionCount] at *
    omega
  · -- the ratio is the power itself, and so is its coefficient
    have hround := roundHalfEven_le hden' (scaled_le (c := (-q).toNat) (n := 52) hratio (by omega))
    simp only [fractionCount] at *
    omega

/-- **What is at least one is rounded to a number that is at least one.** -/
theorem le_magnitude_ofRatio (negative : Bool) (hden : 0 < den) (h : den ≤ num) :
    1023 * fractionCount ≤ (ofRatio negative num den).magnitude := by
  have hnum : 0 < num := Nat.lt_of_lt_of_le hden h
  have hlow := two_pow_binaryExponent_le hnum den
  have hhigh := lt_two_pow_binaryExponent num hden
  rw [magnitude_ofRatio negative hnum]
  generalize binaryExponent num den = e at *
  refine Nat.le_min.mpr ⟨?_, by decide⟩
  -- a ratio of at least one has no negative exponent
  have hexponent : 0 ≤ e := by
    by_contra hnegative
    have hone : (e + 1).toNat = 0 := by omega
    rw [hone, Nat.pow_zero, Nat.mul_one] at hhigh
    have hscaled := Nat.le_mul_of_pos_right num (Nat.two_pow_pos (-(e + 1)).toNat)
    omega
  generalize hq : max (-1074) (e - 52) = q
  have hden' : 0 < den * 2 ^ q.toNat := Nat.mul_pos hden (Nat.two_pow_pos _)
  have hround := le_roundHalfEven hden' (le_scaled (c := (-q).toNat) (n := 52) hlow (by omega))
  simp only [fractionCount] at *
  omega

/-! ## What numbers in these bounds denote -/

section

variable {a b n : Number} {k : Nat}

/-- A magnitude in these bounds is finite. -/
theorem isFinite_of_magnitude_le (hk : k < 1024) (h : n.magnitude ≤ (k + 1023) * fractionCount) :
    n.isFinite = true := by
  rw [isFinite_iff]
  simp only [fractionCount, infiniteMagnitude] at *
  omega

/-- **A number in these bounds denotes at most the power.** -/
theorem ratio_le_of_magnitude_le (h : n.magnitude ≤ (k + 1023) * fractionCount) :
    n.ratio.1 ≤ 2 ^ k * n.ratio.2 := by
  have hfraction := n.fraction_lt
  have hsignificand := n.significand_lt
  rw [magnitude_eq] at h
  have hscale : n.scale = (max 1 n.exponentField : Nat) - 1075 := rfl
  dsimp only [ratio, Nat.pow_eq]
  -- below the power the coefficient has no more than 53 bits
  by_cases hexponent : n.exponentField < k + 1023
  · calc n.significand * 2 ^ n.scale.toNat
        ≤ 2 ^ 53 * 2 ^ n.scale.toNat := Nat.mul_le_mul_right _ hsignificand.le
      _ ≤ 2 ^ k * 2 ^ (-n.scale).toNat := two_pow_mul_le (by omega)
  · -- the power itself, which is the first number of its scale
    have hpower : n.exponentField = k + 1023 ∧ n.fraction = 0 := by
      simp only [fractionCount] at *
      omega
    have hcoefficient : n.significand = 2 ^ 52 := by
      rw [significand_of_normal (by omega), hpower.2]
      rfl
    rw [hcoefficient]
    exact two_pow_mul_le (by omega)

/-- **A number from one on denotes at least one.** -/
theorem le_ratio_of_le_magnitude (h : 1023 * fractionCount ≤ n.magnitude) :
    n.ratio.2 ≤ n.ratio.1 := by
  have hfraction := n.fraction_lt
  rw [magnitude_eq] at h
  have hexponent : 1023 ≤ n.exponentField := by
    simp only [fractionCount] at *
    omega
  have hscale : n.scale = (max 1 n.exponentField : Nat) - 1075 := rfl
  have hsignificand : 2 ^ 52 ≤ n.significand := by
    rw [significand_of_normal (by omega)]
    exact Nat.le_add_right _ _
  calc 2 ^ (-n.scale).toNat = 2 ^ 0 * 2 ^ (-n.scale).toNat := (Nat.one_mul _).symm
    _ ≤ 2 ^ 52 * 2 ^ n.scale.toNat := two_pow_mul_le (by omega)
    _ ≤ n.significand * 2 ^ n.scale.toNat := Nat.mul_le_mul_right _ hsignificand

/-! ## Integers and quotients -/

theorem magnitude_ofInt_le {z : Int} (h : z.natAbs ≤ 2 ^ k) :
    (ofInt z).magnitude ≤ (k + 1023) * fractionCount :=
  magnitude_ofRatio_le _ Nat.one_pos (by rwa [Nat.mul_one])

theorem magnitude_ofNat_le {m : Nat} (h : m ≤ 2 ^ k) :
    (ofNat m).magnitude ≤ (k + 1023) * fractionCount :=
  magnitude_ofRatio_le _ Nat.one_pos (by rwa [Nat.mul_one])

/-- Dividing by a number of at least one does not pass the bound. -/
theorem magnitude_div_le (ha : a.magnitude ≤ (k + 1023) * fractionCount)
    (hb : 1023 * fractionCount ≤ b.magnitude) :
    (a.div b).magnitude ≤ (k + 1023) * fractionCount := by
  have hdividend := ratio_le_of_magnitude_le ha
  have hdivisor := le_ratio_of_le_magnitude hb
  have hpos : ∀ m : Number, 0 < m.ratio.2 := fun m => Nat.two_pow_pos _
  refine magnitude_ofRatio_le _ (Nat.mul_pos (hpos a) ((hpos b).trans_le hdivisor)) ?_
  rw [← Nat.mul_assoc]
  exact Nat.mul_le_mul hdividend hdivisor

/-- A power of ten is at least one. -/
theorem le_magnitude_ofDecimal_one (exponent : Nat) :
    1023 * fractionCount ≤ (ofDecimal false 1 exponent).magnitude := by
  have hdenominator : Nat.pow 10 (-(exponent : Int)).toNat = 1 := by
    rw [Int.toNat_of_nonpos (by omega), Nat.pow_eq, Nat.pow_zero]
  unfold ofDecimal
  dsimp only
  rw [if_neg Nat.one_ne_zero, if_neg (by omega), hdenominator]
  -- beyond the range it is infinite, and otherwise a ratio of at least one
  split
  · rw [infinity, magnitude_ofMagnitude _ (by decide)]
    decide
  · exact le_magnitude_ofRatio _ Nat.one_pos (Nat.mul_pos Nat.one_pos (Nat.pow_pos (by decide)))

end

end Number

end RecordGuard
