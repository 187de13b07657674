import Mathlib.Data.List.TakeWhile
import RecordGuard.Proofs.Number.Rounding
import RecordGuard.Proofs.Text.Digits

/-!
# The text of a number determines it

Positional notation shows what a decimal denotes, and the decimal that is shown for a number reads
back to no other. So numbers with the same text are the same number, sign of zero included; only the
NaNs share a text.

* **`readPositional`**, **`Decimal.readPositional_positional`** — positional notation, read back.
* **`Number.unsignedChars`** — the text of a number without its sign.
* **`Number.chars_eq_iff`** — the headline.
-/

namespace RecordGuard

/-! ## Positional notation -/

/-- What a text in positional notation denotes. -/
def readPositional (cs : List Char) : ℚ :=
  let whole := cs.takeWhile (· != '.')
  let part := (cs.dropWhile (· != '.')).tail
  (Field.value (whole ++ part) : ℚ) / 10 ^ part.length

section

variable {whole part : List Char}

/-- No digit is a point. -/
theorem ne_point_of_isDigit (h : ∀ c ∈ whole, c.isDigit = true) :
    ∀ c ∈ whole, (c != '.') = true := by
  intro c hc
  have hdigit := h c hc
  rw [bne_iff_ne]
  rintro rfl
  exact absurd hdigit (by decide)

/-- Digits without a point denote an integer. -/
theorem readPositional_whole (h : ∀ c ∈ whole, c.isDigit = true) :
    readPositional whole = Field.value whole := by
  have htake := takeWhile_append_of_ends (ne_point_of_isDigit h) ends_nil
  have hdrop := dropWhile_append_of_ends (ne_point_of_isDigit h) ends_nil
  rw [List.append_nil] at htake hdrop
  simp [readPositional, htake, hdrop]

/-- The digits behind the point count by their number. -/
theorem readPositional_point (h : ∀ c ∈ whole, c.isDigit = true) :
    readPositional (whole ++ '.' :: part) = Field.value (whole ++ part) / 10 ^ part.length := by
  have hpoint : Ends (· != '.') ('.' :: part) := ends_cons.mpr rfl
  rw [readPositional, takeWhile_append_of_ends (ne_point_of_isDigit h) hpoint,
    dropWhile_append_of_ends (ne_point_of_isDigit h) hpoint]
  rfl

end

/-- What is dropped is zeros. -/
theorem exists_eq_dropTrailingZeros (cs : List Char) :
    ∃ zeros, cs = dropTrailingZeros cs ++ List.replicate zeros '0' := by
  have hmem : ∀ c ∈ cs.reverse.takeWhile (· == '0'), c = '0' := by
    intro c hc
    simpa using List.mem_takeWhile_imp hc
  have hzeros := List.eq_replicate_of_mem hmem
  have hsplit : (cs.reverse.takeWhile (· == '0') ++ cs.reverse.dropWhile (· == '0')).reverse = cs := by
    rw [List.takeWhile_append_dropWhile, List.reverse_reverse]
  rw [List.reverse_append, hzeros, List.reverse_replicate] at hsplit
  exact ⟨_, hsplit.symm⟩

/-! ## A point among digits -/

/-- Digits with a point in front of the last `places` of them, unless only zeros follow it. -/
def pointed (places : Nat) (ds : List Char) : List Char :=
  let whole := ds.take (ds.length - places)
  let part := dropTrailingZeros (ds.drop (ds.length - places))
  if part.isEmpty then whole else whole ++ '.' :: part

section

variable {places : Nat} {ds : List Char}

/-- A run of digits comes apart into those that are shown and zeros. -/
theorem exists_pointed (places : Nat) (ds : List Char) :
    ∃ whole part zeros, ds = whole ++ (part ++ List.replicate zeros '0') ∧
      whole.length = ds.length - places ∧
      pointed places ds = if part.isEmpty then whole else whole ++ '.' :: part := by
  obtain ⟨zeros, hzeros⟩ := exists_eq_dropTrailingZeros (ds.drop (ds.length - places))
  refine ⟨ds.take (ds.length - places), dropTrailingZeros (ds.drop (ds.length - places)), zeros,
    ?_, ?_, rfl⟩
  · rw [← hzeros, List.take_append_drop]
  · rw [List.length_take]
    omega

/-- **A point among digits divides by a power of ten**, zeros left out or not. -/
theorem readPositional_pointed (hdigits : ∀ c ∈ ds, c.isDigit = true) (hplaces : places ≤ ds.length) :
    readPositional (pointed places ds) = Field.value ds / 10 ^ places := by
  obtain ⟨whole, part, zeros, rfl, hlength, htext⟩ := exists_pointed places ds
  have hwhole : ∀ c ∈ whole, c.isDigit = true := fun c hc => hdigits c (List.mem_append_left _ hc)
  -- the places are the digits that are shown behind the point and the zeros that are not
  have hplaces : places = part.length + zeros := by
    simp only [List.length_append, List.length_replicate] at hlength hplaces
    omega
  have hread : readPositional (if part.isEmpty then whole else whole ++ '.' :: part) =
      Field.value (whole ++ part) / 10 ^ part.length := by
    cases part with
    | nil => simpa using readPositional_whole hwhole
    | cons c rest => exact readPositional_point hwhole
  have hten : (10 : ℚ) ^ zeros ≠ 0 := by positivity
  rw [htext, hread, ← List.append_assoc, Field.value_append _ (List.replicate zeros '0'),
    Field.value_replicate_zero, List.length_replicate, hplaces, pow_add]
  push_cast
  rw [add_zero, mul_div_mul_right _ _ hten]

/-- It adds no character but the point. -/
theorem pointed_subset (places : Nat) (ds : List Char) : pointed places ds ⊆ '.' :: ds := by
  obtain ⟨whole, part, zeros, rfl, -, htext⟩ := exists_pointed places ds
  intro c hc
  rw [htext] at hc
  split at hc <;> grind

/-- There is a digit in front of the point. -/
theorem head?_pointed (hplaces : places < ds.length) : (pointed places ds).head? = ds.head? := by
  obtain ⟨whole, part, zeros, rfl, hlength, htext⟩ := exists_pointed places ds
  cases whole with
  | nil =>
    simp only [List.length_nil] at hlength
    omega
  | cons c rest =>
    rw [htext]
    split <;> rfl

end

namespace Decimal

/-- The digits of a decimal, with enough zeros in front for a digit before the point. -/
def padded (d : Decimal) : List Char :=
  let cs := Nat.toDigits 10 d.digits
  List.replicate ((-d.exponent).toNat + 1 - cs.length) '0' ++ cs

theorem positional_of_places {d : Decimal} (h : d.exponent < 0) :
    d.positional = pointed (-d.exponent).toNat d.padded :=
  if_neg (by omega)

theorem isDigit_padded (d : Decimal) : ∀ c ∈ d.padded, c.isDigit = true :=
  List.forall_mem_append.mpr ⟨isDigit_replicate_zero _, isDigit_toDigits _⟩

theorem value_padded (d : Decimal) : Field.value d.padded = d.digits := by
  simp [padded, Field.value_append]

theorem lt_length_padded (d : Decimal) : (-d.exponent).toNat < d.padded.length := by
  simp only [padded, List.length_append, List.length_replicate]
  omega

theorem positional_of_whole {d : Decimal} (h : 0 ≤ d.exponent) :
    d.positional = Nat.toDigits 10 d.digits ++ List.replicate d.exponent.toNat '0' :=
  if_pos h

theorem isDigit_whole (d : Decimal) :
    ∀ c ∈ Nat.toDigits 10 d.digits ++ List.replicate d.exponent.toNat '0', c.isDigit = true :=
  List.forall_mem_append.mpr ⟨isDigit_toDigits _, isDigit_replicate_zero _⟩

/-- **Positional notation denotes the decimal.** -/
theorem readPositional_positional (d : Decimal) : readPositional d.positional = d.value := by
  -- with a point, and with zeros behind
  rcases lt_or_ge d.exponent 0 with h | h
  · have hplaces : ((-d.exponent).toNat : Int) = -d.exponent := by omega
    rw [positional_of_places h, readPositional_pointed d.isDigit_padded d.lt_length_padded.le,
      value_padded, value, ← zpow_natCast, hplaces, zpow_neg, div_inv_eq_mul]
  · have hpower : ((d.exponent.toNat : Nat) : Int) = d.exponent := by omega
    rw [positional_of_whole h, readPositional_whole d.isDigit_whole, Field.value_append,
      Field.value_toDigits, Field.value_replicate_zero, List.length_replicate, value]
    push_cast
    rw [add_zero, ← zpow_natCast, hpower]

/-- Positional notation has digits and a point. -/
theorem mem_positional {d : Decimal} {c : Char} (hc : c ∈ d.positional) :
    c.isDigit = true ∨ c = '.' := by
  rcases lt_or_ge d.exponent 0 with h | h
  · rw [positional_of_places h] at hc
    exact (List.mem_cons.mp (pointed_subset _ _ hc)).symm.imp (d.isDigit_padded c) id
  · rw [positional_of_whole h] at hc
    exact .inl (d.isDigit_whole c hc)

/-- Positional notation starts with a digit. -/
theorem exists_head_positional (d : Decimal) :
    ∃ c, d.positional.head? = some c ∧ c.isDigit = true := by
  have hhead : ∀ {ds : List Char}, ds ≠ [] → (∀ c ∈ ds, c.isDigit = true) →
      ∃ c, ds.head? = some c ∧ c.isDigit = true := by
    intro ds hne hdigits
    exact ⟨ds.head hne, List.head?_eq_some_head hne, hdigits _ (List.head_mem hne)⟩
  rcases lt_or_ge d.exponent 0 with h | h
  · have hpadded : d.padded ≠ [] := List.ne_nil_of_length_pos (Nat.zero_lt_of_lt d.lt_length_padded)
    rw [positional_of_places h, head?_pointed d.lt_length_padded]
    exact hhead hpadded d.isDigit_padded
  · rw [positional_of_whole h]
    exact hhead (by simp [Nat.toDigits_ne_nil]) d.isDigit_whole

end Decimal

/-! ## Numbers -/

namespace Number

variable {a b n : Number}

/-- A number is its sign and its magnitude. -/
theorem eq_of_magnitude_eq (hnegative : a.negative = b.negative)
    (hmagnitude : a.magnitude = b.magnitude) : a = b := by
  have ha := a.bits.toNat_lt
  have hb := b.bits.toNat_lt
  rw [magnitude, magnitude] at hmagnitude
  rw [negative, negative, decide_eq_decide] at hnegative
  obtain ⟨x⟩ := a
  obtain ⟨y⟩ := b
  refine congrArg Number.mk (UInt64.toNat_inj.mp ?_)
  dsimp only [magnitudeCount] at *
  omega

/-- The text of a number without its sign. -/
def unsignedChars (n : Number) : List Char :=
  if n.isInfinite then ['i', 'n', 'f']
  else if n.isZero then ['0']
  else (n.shortest .larger).positional

theorem chars_of_not_isNaN (h : n.isNaN = false) :
    n.chars = if n.negative then '-' :: n.unsignedChars else n.unsignedChars := by
  rw [chars, h]
  rfl

theorem chars_of_isNaN (h : n.isNaN = true) : n.chars = ['N', 'a', 'N'] := if_pos h

/-- Without its sign a number begins with a digit, or it is infinite. -/
theorem exists_head_unsignedChars (n : Number) :
    ∃ c, n.unsignedChars.head? = some c ∧ (c.isDigit = true ∨ n.isInfinite = true ∧ c = 'i') := by
  unfold unsignedChars
  split_ifs with hinfinite hzero
  · exact ⟨'i', rfl, .inr ⟨hinfinite, rfl⟩⟩
  · exact ⟨'0', rfl, .inl rfl⟩
  · obtain ⟨c, hc, hdigit⟩ := (n.shortest .larger).exists_head_positional
    exact ⟨c, hc, .inl hdigit⟩

/-- It does not begin with another minus. -/
theorem head?_unsignedChars_ne_minus (n : Number) : n.unsignedChars.head? ≠ some '-' := by
  obtain ⟨c, hc, hdigit | ⟨-, rfl⟩⟩ := n.exists_head_unsignedChars
  · rw [hc]
    rintro ⟨⟩
    exact absurd hdigit (by decide)
  · rw [hc]
    decide

/-- Only infinities show no digits. -/
theorem isInfinite_eq_of_unsignedChars_eq (h : a.unsignedChars = b.unsignedChars) :
    a.isInfinite = b.isInfinite := by
  have hhead : ∀ {n : Number}, n.isInfinite = decide (n.unsignedChars.head? = some 'i') := by
    intro n
    rcases hinfinite : n.isInfinite with _ | _
    · obtain ⟨c, hc, hdigit | ⟨hinf, -⟩⟩ := n.exists_head_unsignedChars
      · rw [hc, eq_comm, decide_eq_false_iff_not]
        rintro ⟨⟩
        exact absurd hdigit (by decide)
      · rw [hinfinite] at hinf
        cases hinf
    · rw [unsignedChars, if_pos hinfinite]
      rfl
  rw [hhead, h, ← hhead]

/-- What is shown of a finite number is zero, or reads back to it. -/
theorem readPositional_unsignedChars (hinfinite : n.isInfinite = false) :
    n.isZero = true ∧ readPositional n.unsignedChars = 0 ∨
      n.isZero = false ∧ ∃ d, n.readsBack d = true ∧ readPositional n.unsignedChars = d.value := by
  rw [unsignedChars, if_neg (by simp [hinfinite])]
  cases hzero : n.isZero with
  | true =>
    have hread : readPositional ['0'] = Field.value ['0'] := readPositional_whole (by simp)
    refine .inl ⟨rfl, ?_⟩
    rw [if_pos rfl, hread]
    rfl
  | false =>
    refine .inr ⟨rfl, n.shortest .larger, readsBack_shortest hzero _, ?_⟩
    rw [if_neg (by simp), Decimal.readPositional_positional]

/-- **The text without the sign determines the magnitude.** -/
theorem magnitude_eq_of_unsignedChars_eq (h : a.unsignedChars = b.unsignedChars) :
    a.magnitude = b.magnitude := by
  have hinfinite := isInfinite_eq_of_unsignedChars_eq h
  cases hb : b.isInfinite with
  | true =>
    rw [hb] at hinfinite
    exact (of_decide_eq_true hinfinite).trans (of_decide_eq_true hb).symm
  | false =>
    rw [hb] at hinfinite
    -- zero denotes zero, and no decimal of zero reads back to anything else
    have hpositive : ∀ {n : Number} {d : Decimal}, n.isZero = false → n.readsBack d = true →
        d.value ≠ 0 :=
      fun hzero hread => ((lower_pos hzero).trans_le (readsBack_iff.mp hread).1).ne'
    rcases readPositional_unsignedChars hinfinite with ⟨hza, hva⟩ | ⟨hza, d, hd, hva⟩
    · rcases readPositional_unsignedChars hb with ⟨hzb, -⟩ | ⟨hzb, e, he, hvb⟩
      · exact (of_decide_eq_true hza).trans (of_decide_eq_true hzb).symm
      · rw [h, hvb] at hva
        exact absurd hva (hpositive hzb he)
    · rcases readPositional_unsignedChars hb with ⟨hzb, hvb⟩ | ⟨hzb, e, he, hvb⟩
      · rw [h, hvb] at hva
        exact absurd hva.symm (hpositive hza hd)
      · exact magnitude_eq_of_readsBack hd he (by rw [← hva, h, hvb])

/-! ## The headline -/

/-- **A number that is not a NaN is determined by its text.** -/
theorem eq_of_chars_eq (ha : a.isNaN = false) (hb : b.isNaN = false) (h : a.chars = b.chars) :
    a = b := by
  rw [chars_of_not_isNaN ha, chars_of_not_isNaN hb] at h
  have hminus : ∀ {n : Number} {cs : List Char}, n.unsignedChars ≠ '-' :: cs := by
    intro n cs hn
    exact n.head?_unsignedChars_ne_minus (by rw [hn]; rfl)
  -- both signs, and whatever they are the other text does not begin with one
  cases hna : a.negative <;> cases hnb : b.negative <;> rw [hna, hnb] at h
  · exact eq_of_magnitude_eq (hna.trans hnb.symm) (magnitude_eq_of_unsignedChars_eq h)
  · exact absurd h hminus
  · exact absurd h.symm hminus
  · exact eq_of_magnitude_eq (hna.trans hnb.symm)
      (magnitude_eq_of_unsignedChars_eq (List.tail_eq_of_cons_eq h))

/-- The number, with one NaN for all of them. -/
def oneNaN (n : Number) : Number := if n.isNaN then nan else n

/-- It has the same text. -/
theorem chars_oneNaN (n : Number) : n.oneNaN.chars = n.chars := by
  unfold oneNaN
  split
  · next h => rw [chars_of_isNaN h]; rfl
  · rfl

/-- Only a NaN has a text that begins like that of a NaN. -/
theorem head?_chars_of_not_isNaN (h : n.isNaN = false) : n.chars.head? ≠ some 'N' := by
  rw [chars_of_not_isNaN h]
  split
  · simp
  · obtain ⟨c, hc, hdigit | ⟨-, rfl⟩⟩ := n.exists_head_unsignedChars
    · rw [hc]
      rintro ⟨⟩
      exact absurd hdigit (by decide)
    · rw [hc]
      decide

/-- **Two numbers have the same text if they are the same, or both NaNs.** -/
theorem chars_eq_iff : a.chars = b.chars ↔ a.oneNaN = b.oneNaN := by
  refine ⟨fun h => ?_, fun h => by rw [← chars_oneNaN, h, chars_oneNaN]⟩
  unfold oneNaN
  cases ha : a.isNaN <;> cases hb : b.isNaN
  · exact eq_of_chars_eq ha hb h
  · rw [chars_of_isNaN hb] at h
    exact absurd (congrArg List.head? h) (head?_chars_of_not_isNaN ha)
  · rw [chars_of_isNaN ha] at h
    exact absurd (congrArg List.head? h.symm) (head?_chars_of_not_isNaN hb)
  · rfl

/-! ## Characters -/

/-- What the text of a number starts with. -/
theorem exists_head_chars (n : Number) :
    ∃ c, n.chars.head? = some c ∧ (c.isDigit = true ∨ c = '-' ∨ c = 'i' ∨ c = 'N') := by
  cases h : n.isNaN with
  | true => exact ⟨'N', by rw [chars_of_isNaN h]; rfl, by decide⟩
  | false =>
    rw [chars_of_not_isNaN h]
    split
    · exact ⟨'-', rfl, by decide⟩
    · obtain ⟨c, hc, hdigit | ⟨-, rfl⟩⟩ := n.exists_head_unsignedChars
      · exact ⟨c, hc, .inl hdigit⟩
      · exact ⟨'i', hc, by decide⟩

/-- What the text of a number is made of. -/
theorem mem_chars {c : Char} (hc : c ∈ n.chars) :
    c.isDigit = true ∨ c ∈ ['-', '.', 'i', 'n', 'f', 'N', 'a'] := by
  have hunsigned : c ∈ n.unsignedChars → c.isDigit = true ∨ c ∈ ['.', 'i', 'n', 'f'] := by
    unfold unsignedChars
    split_ifs
    · exact fun hc => .inr (List.mem_cons_of_mem _ hc)
    · exact fun hc => .inl (by rw [List.mem_singleton.mp hc]; rfl)
    · exact fun hc => (Decimal.mem_positional hc).imp id fun h => by rw [h]; decide
  have hsubset : ['.', 'i', 'n', 'f'] ⊆ ['-', '.', 'i', 'n', 'f', 'N', 'a'] := by decide
  cases h : n.isNaN with
  | true =>
    rw [chars_of_isNaN h] at hc
    have hnan : ['N', 'a', 'N'] ⊆ ['-', '.', 'i', 'n', 'f', 'N', 'a'] := by decide
    exact .inr (hnan hc)
  | false =>
    rw [chars_of_not_isNaN h] at hc
    split at hc
    · rcases List.mem_cons.mp hc with rfl | hc
      · exact .inr (by decide)
      · exact (hunsigned hc).imp id fun h => hsubset h
    · exact (hunsigned hc).imp id fun h => hsubset h

end Number

end RecordGuard
