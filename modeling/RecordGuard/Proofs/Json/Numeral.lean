import RecordGuard.Json.Numeral
import RecordGuard.Proofs.Number.Bounds

/-!
# Numbers of documents

What a numeral is read as is an integer of 64 bits or a finite number, and both are finite as numbers
of values.

* **`JsonNumber.Fits`**, **`JsonNumber.isFinite_toNumber`** — the numbers of documents.
* **`Numeral.absorb_lt`** — a coefficient has 64 bits.
* **`Numeral.fits_scaled`** — times or over a power of ten it is finite, if it is anything.
* **`Numeral.fits_of_read?`** — the headline.
-/

namespace RecordGuard

open Number

/-! ## Numbers of documents -/

/-- An integer of 64 bits, signed or unsigned, or a finite number. -/
def JsonNumber.Fits : JsonNumber → Prop
  | integer z => -2 ^ 63 ≤ z ∧ z < 2 ^ 64
  | float n => n.isFinite = true

/-- **A number of a document is finite** as a number of a value. -/
theorem JsonNumber.isFinite_toNumber {n : JsonNumber} (h : n.Fits) : n.toNumber.isFinite = true := by
  cases n with
  | integer z =>
    obtain ⟨hlow, hhigh⟩ := h
    have hbound : z.natAbs ≤ 2 ^ 64 := by omega
    exact isFinite_of_magnitude_le (by decide) (magnitude_ofInt_le hbound)
  | float n => exact h

namespace Numeral

variable {negative : Bool} {coefficient : Nat} {cs rest : List Char} {n : JsonNumber}

/-! ## Coefficients -/

/-- **A coefficient has 64 bits**: digits that would go beyond are not absorbed. -/
theorem absorb_lt (taken : Nat) (cs : List Char) (h : coefficient < UInt64.size) :
    (absorb coefficient taken cs).1 < UInt64.size := by
  fun_induction absorb coefficient taken cs with
  | case1 => exact h
  | case2 coefficient taken c rest next htaken ih =>
    rw [Bool.and_eq_true, decide_eq_true_iff] at htaken
    exact ih htaken.2
  | case3 => exact h

theorem magnitude_ofNat_coefficient (h : coefficient < UInt64.size) :
    (ofNat coefficient).magnitude ≤ (64 + 1023) * fractionCount :=
  magnitude_ofNat_le h.le

/-! ## Powers of ten -/

/-- Dividing by powers of ten does not pass that bound. -/
theorem magnitude_divideByPower (exponent steps : Nat) {n : Number}
    (h : n.magnitude ≤ (64 + 1023) * fractionCount) :
    (divideByPower n exponent steps).magnitude ≤ (64 + 1023) * fractionCount := by
  -- the exponent is worked off in steps, and each divisor is at least one
  fun_induction divideByPower n exponent steps with
  | case1 => exact h
  | case2 => exact magnitude_div_le h (le_magnitude_ofDecimal_one _)
  | case3 => exact h
  | case4 _ _ _ _ _ ih => exact ih (magnitude_div_le h (le_magnitude_ofDecimal_one 308))

/-- A product is finite or infinite. -/
theorem isFinite_mul {a b : Number} (h : (a.mul b).isInfinite ≠ true) :
    (a.mul b).isFinite = true := by
  have hle : (a.mul b).magnitude ≤ infiniteMagnitude := magnitude_ofRatio_le_infinite _ _ _
  rw [isInfinite, ne_eq, decide_eq_true_iff] at h
  rw [isFinite_iff]
  omega

/-- **A coefficient times or over a power of ten fits**, if the reader does not refuse it. -/
theorem fits_scaled (hcoefficient : coefficient < UInt64.size) {exponent : Int}
    (h : scaled negative coefficient exponent = some n) : n.Fits := by
  have hbound := magnitude_ofNat_coefficient hcoefficient
  have hsigned : ∀ {m : Number}, m.isFinite = true →
      JsonNumber.Fits (.float (if negative then m.neg else m)) := by
    intro m hm
    split
    · exact (isFinite_neg m).trans hm
    · exact hm
  -- a quotient, the coefficient itself, and a product that may be refused
  unfold scaled at h
  dsimp only at h
  split at h
  · cases h
    exact hsigned (isFinite_of_magnitude_le (by decide) (magnitude_divideByPower _ _ hbound))
  split at h
  · cases h
    exact hsigned (isFinite_of_magnitude_le (by decide) hbound)
  split at h
  · cases h
  split at h
  · cases h
  · next hfinite =>
    cases h
    exact hsigned (isFinite_mul hfinite)

/-! ## Numerals -/

/-- A numeral with an exponent. -/
theorem fits_of_exponent? (hcoefficient : coefficient < UInt64.size) {shift : Int}
    (h : exponent? negative coefficient shift cs = some (n, rest)) : n.Fits := by
  unfold exponent? at h
  dsimp only at h
  -- whichever sign the exponent has
  split at h
  all_goals
    split at h
    · cases h
    · obtain ⟨m, hm, heq⟩ := Option.bind_eq_some_iff.mp h
      cases heq
      exact fits_scaled hcoefficient hm

/-- A numeral behind its fraction. -/
theorem fits_of_finish? (hcoefficient : coefficient < UInt64.size) {shift : Int}
    (h : finish? negative coefficient shift cs = some (n, rest)) : n.Fits := by
  unfold finish? at h
  split at h
  · exact fits_of_exponent? hcoefficient h
  · exact fits_of_exponent? hcoefficient h
  · obtain ⟨m, hm, heq⟩ := Option.map_eq_some_iff.mp h
    cases heq
    exact fits_scaled hcoefficient hm

/-- A numeral behind its point: more digits go into the coefficient. -/
theorem fits_of_fraction? (hcoefficient : coefficient < UInt64.size) {shift : Int}
    (h : fraction? negative coefficient shift cs = some (n, rest)) : n.Fits := by
  unfold fraction? at h
  split at h
  · exact fits_of_finish? (absorb_lt 0 cs hcoefficient) h
  · cases h

/-- A numeral without a point or an exponent is an integer where it can be. -/
theorem fits_integer (h : coefficient < UInt64.size) : (integer negative coefficient).Fits := by
  simp only [UInt64.size] at h
  unfold integer
  -- a positive one, one too far below zero, and a negative one
  split_ifs with hpositive hfloat
  · simp only [JsonNumber.Fits]
    omega
  · exact (isFinite_neg _).trans
      (isFinite_of_magnitude_le (k := 64) (by decide) (magnitude_ofNat_coefficient h))
  · simp only [UInt64.size, JsonNumber.Fits] at *
    omega

/-- **What a numeral is read as fits.** -/
theorem fits_of_read? (h : read? negative cs = some (n, rest)) : n.Fits := by
  unfold read? at h
  split at h
  · cases h
  split at h
  next coefficient taken behind hdigits =>
    have hcoefficient : coefficient < UInt64.size := by
      split at hdigits
      · cases hdigits
        decide
      · have hzero : 0 < UInt64.size := by decide
        have habsorbed := absorb_lt 0 cs hzero
        rwa [hdigits] at habsorbed
    dsimp only at h
    split at h
    · cases h
    split at h
    · exact fits_of_fraction? hcoefficient h
    · exact fits_of_exponent? hcoefficient h
    · exact fits_of_exponent? hcoefficient h
    split at h
    · cases h
      exact fits_integer hcoefficient
    · obtain ⟨m, hm, heq⟩ := Option.map_eq_some_iff.mp h
      cases heq
      exact fits_scaled hcoefficient hm

end Numeral

end RecordGuard
