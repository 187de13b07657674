import RecordGuard.Proofs.Calendar.Day
import RecordGuard.Proofs.Text.Digits

/-!
# The timestamp of an instant determines it

A timestamp shows the day and the time of day in universal time, to the nanosecond. From both the
instant follows, because a leap second is the last of its minute: without that, the second 60 of a
minute could be any other second, one late.

* **`Instant.Proper`**, **`ProperInstant`** — the instants that there are, with leap seconds only where a
  minute ends; and an instant with the proof that it is one of them.
* **`ProperInstant.eq_of_day_of_clock`** — day and time of day determine a proper instant.
* **`Timestamp.chars_inj`** — the headline: the fields of a timestamp are told apart one by one.
-/

namespace RecordGuard

/-- There are two seconds' worth of nanoseconds at most, and the second of them is a leap second, which
follows the last second of a minute. -/
def Instant.Proper (i : Instant) : Prop :=
  i.nanos < 2 * nanosPerSecond ∧ (nanosPerSecond ≤ i.nanos → i.seconds % 60 = 59)

instance (i : Instant) : Decidable i.Proper := by unfold Instant.Proper; infer_instance

/-- An instant with the proof that there is such a one: seconds and nanoseconds may be put together in any
way, but a leap second is the last of its minute. What is read off a clock is proper
(`ProperInstant.civil`), and so is what any text names (`ProperInstant.ofText`). -/
structure ProperInstant extends Instant where
  proper : toInstant.Proper

/-- **Day and time of day determine a proper instant.** -/
theorem ProperInstant.eq_of_day_of_clock {i j : ProperInstant} (hday : i.day = j.day)
    (hclock : i.clock = j.clock) : i = j := by
  have hdays : i.seconds / 86400 = j.seconds / 86400 := by
    rw [← Day.number_ofNumber (i.seconds / 86400), ← Day.number_ofNumber (j.seconds / 86400)]
    exact congrArg Day.number hday
  obtain ⟨⟨s, m⟩, hi⟩ := i
  obtain ⟨⟨t, n⟩, hj⟩ := j
  dsimp only at hclock hdays
  clear hday
  congr 1
  obtain ⟨hi, hi'⟩ := hi
  obtain ⟨hj, hj'⟩ := hj
  -- the second shown is the second of the minute, and one more in a leap second
  simp only [Instant.clock, Clock.mk.injEq, nanosPerSecond] at *
  obtain ⟨hhour, hminute, hsecond, hnanos⟩ := hclock
  have hnanos : m = n := by omega
  have hseconds : s = t := by omega
  rw [hnanos, hseconds]

theorem Instant.nanos_clock_lt (i : Instant) : i.clock.nanos < nanosPerSecond :=
  Nat.mod_lt _ (by decide)

namespace Timestamp

variable {x y : List Char}

/-! ## Fields -/

/-- A year is digits, with a sign in front of them if it has not four. -/
theorem yearChars_append_inj {a b : Int} (hx : Ends Char.isDigit x) (hy : Ends Char.isDigit y)
    (h : yearChars a ++ x = yearChars b ++ y) : a = b ∧ x = y := by
  have hdigits : ∀ {sign : Char} {n : Nat} {x y : List Char}, sign.isDigit = false →
      sign :: x ≠ padded 4 n ++ y := by
    intro sign n x y hsign h
    obtain ⟨c, rest, hpadded⟩ := List.exists_cons_of_ne_nil (padded_ne_nil 4 n)
    rw [hpadded, List.cons_append] at h
    have hc := isDigit_padded 4 n c (by rw [hpadded]; exact List.mem_cons_self)
    rw [← List.head_eq_of_cons_eq h, hsign] at hc
    cases hc
  unfold yearChars at h
  -- four digits, a minus or a plus on either side: a digit is no sign, and the signs differ
  split_ifs at h
  · obtain ⟨hvalue, hrest⟩ := padded_append_inj hx hy h
    exact ⟨by omega, hrest⟩
  · exact absurd h.symm (hdigits rfl)
  · exact absurd h.symm (hdigits rfl)
  · exact absurd h (hdigits rfl)
  · obtain ⟨hvalue, hrest⟩ := padded_append_inj hx hy (List.tail_eq_of_cons_eq h)
    exact ⟨by omega, hrest⟩
  · exact absurd (List.head_eq_of_cons_eq h) (by decide)
  · exact absurd h (hdigits rfl)
  · exact absurd (List.head_eq_of_cons_eq h) (by decide)
  · obtain ⟨hvalue, hrest⟩ := padded_append_inj hx hy (List.tail_eq_of_cons_eq h)
    exact ⟨by omega, hrest⟩

/-- The reader of fractions reads what is printed, be it three, six or nine digits or nothing. -/
theorem fraction?_fractionChars {n : Nat} (hn : n < nanosPerSecond) (hx : Ends Char.isDigit x)
    (hpoint : x.head? ≠ some '.') : Field.fraction? (fractionChars n ++ x) = some (n, x) := by
  have hread : ∀ {width k : Nat}, 0 < width → width ≤ 9 → k < 10 ^ width → k * 10 ^ (9 - width) = n →
      Field.fraction? ('.' :: padded width k ++ x) = some (n, x) := by
    rintro width k hwidth hnine hk rfl
    have hlength := length_padded hwidth hk
    have htake : (padded width k).take 9 = padded width k := List.take_of_length_le (by omega)
    have hnanos := Field.nanos?_append (isDigit_padded width k) hx (padded_ne_nil width k)
    rwa [htake, value_padded, hlength] at hnanos
  unfold nanosPerSecond at hn
  unfold fractionChars
  -- no fraction, and one of three, six or nine digits
  split_ifs with hzero hmilli hmicro
  · rw [hzero]
    exact Field.fraction?_of_head?_ne hpoint
  · exact hread (by decide) (by decide) (by omega) (by omega)
  · exact hread (by decide) (by decide) (by omega) (by omega)
  · exact hread (by decide) (by decide) hn (Nat.mul_one n)

/-- The year goes up to a dash, so do the month and, to what follows, the day. -/
theorem dayChars_append_inj {d e : Day} (hx : Ends Char.isDigit x) (hy : Ends Char.isDigit y)
    (h : dayChars d ++ x = dayChars e ++ y) : d = e ∧ x = y := by
  simp only [dayChars, List.append_assoc, List.cons_append] at h
  have hdash : ∀ {cs : List Char}, Ends Char.isDigit ('-' :: cs) := ends_cons.mpr rfl
  obtain ⟨hyear, h⟩ := yearChars_append_inj hdash hdash h
  obtain ⟨hmonth, h⟩ := padded_append_inj hdash hdash (List.tail_eq_of_cons_eq h)
  obtain ⟨hday, h⟩ := padded_append_inj hx hy (List.tail_eq_of_cons_eq h)
  refine ⟨?_, h⟩
  cases d
  cases e
  exact Day.mk.injEq .. ▸ ⟨hyear, hmonth, hday⟩

/-- The fields of a time of day go up to a colon; the fraction is told by its reader. -/
theorem clockChars_append_inj {c e : Clock} (hc : c.nanos < nanosPerSecond)
    (he : e.nanos < nanosPerSecond) (hx : Ends Char.isDigit x) (hpoint : x.head? ≠ some '.')
    (h : clockChars c ++ x = clockChars e ++ x) : c = e := by
  simp only [clockChars, List.append_assoc, List.cons_append] at h
  have hcolon : ∀ {cs : List Char}, Ends Char.isDigit (':' :: cs) := ends_cons.mpr rfl
  have hfraction : ∀ {n : Nat}, Ends Char.isDigit (fractionChars n ++ x) := by
    intro n
    unfold fractionChars
    split_ifs
    · exact hx
    all_goals exact ends_cons.mpr rfl
  obtain ⟨hhour, h⟩ := padded_append_inj hcolon hcolon h
  obtain ⟨hminute, h⟩ := padded_append_inj hcolon hcolon (List.tail_eq_of_cons_eq h)
  obtain ⟨hsecond, h⟩ := padded_append_inj hfraction hfraction (List.tail_eq_of_cons_eq h)
  have hread : some (c.nanos, x) = some (e.nanos, x) := by
    rw [← fraction?_fractionChars hc hx hpoint, h, fraction?_fractionChars he hx hpoint]
  have hnanos : c.nanos = e.nanos := (Prod.mk.inj (Option.some.inj hread)).1
  cases c
  cases e
  exact Clock.mk.injEq .. ▸ ⟨hhour, hminute, hsecond, hnanos⟩

/-! ## Characters -/

/-- What a year is made of. -/
theorem mem_yearChars {year : Int} {c : Char} (hc : c ∈ yearChars year) :
    c.isDigit = true ∨ c ∈ ['-', '+'] := by
  unfold yearChars at hc
  split_ifs at hc
  · exact .inl (isDigit_padded _ _ c hc)
  · exact (List.mem_cons.mp hc).symm.imp (isDigit_padded _ _ c) fun h => by rw [h]; decide
  · exact (List.mem_cons.mp hc).symm.imp (isDigit_padded _ _ c) fun h => by rw [h]; decide

/-- What a fraction is made of. -/
theorem mem_fractionChars {nanos : Nat} {c : Char} (hc : c ∈ fractionChars nanos) :
    c.isDigit = true ∨ c = '.' := by
  unfold fractionChars at hc
  split_ifs at hc
  · cases hc
  all_goals exact (List.mem_cons.mp hc).symm.imp (isDigit_padded _ _ c) id

/-- What a timestamp is made of. -/
theorem mem_chars {i : Instant} {c : Char} (hc : c ∈ chars i) :
    c.isDigit = true ∨ c ∈ ['-', '+', 'T', ':', '.'] := by
  have hzero : c = '0' → c.isDigit = true := by
    rintro rfl
    rfl
  have hpadded : ∀ {width n : Nat}, c ∈ padded width n → c.isDigit = true :=
    fun hc => isDigit_padded _ _ c hc
  have hyear : c ∈ yearChars i.day.year → c.isDigit = true ∨ c = '-' ∨ c = '+' := by
    simpa using mem_yearChars
  have hfraction : c ∈ fractionChars i.clock.nanos → c.isDigit = true ∨ c = '.' := mem_fractionChars
  simp only [chars, dayChars, clockChars, List.mem_append, List.mem_cons, List.not_mem_nil] at hc ⊢
  grind

/-! ## The headline -/

/-- **Proper instants with the same timestamp are the same.** -/
theorem chars_inj {i j : ProperInstant} (h : chars i.toInstant = chars j.toInstant) : i = j := by
  have hmark : ∀ {cs : List Char}, Ends Char.isDigit ('T' :: cs) := ends_cons.mpr rfl
  have hzone : Ends Char.isDigit ['+', '0', '0', ':', '0', '0'] := ends_cons.mpr rfl
  simp only [chars, List.append_assoc, List.cons_append] at h
  obtain ⟨hday, h⟩ := dayChars_append_inj hmark hmark h
  have hclock := clockChars_append_inj i.nanos_clock_lt j.nanos_clock_lt hzone (by decide)
    (List.tail_eq_of_cons_eq h)
  exact ProperInstant.eq_of_day_of_clock hday hclock

end Timestamp

end RecordGuard
