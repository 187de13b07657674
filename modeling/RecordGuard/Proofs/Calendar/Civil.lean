import RecordGuard.Proofs.Calendar.Timestamp

/-!
# Civil time

An instant is read off a clock somewhere as a civil day and a time of day. This module shows that
`Instant.ofCivil?` finds the instant at which a clock at the given offset shows the given day and time,
the offset taken away across the ends of days, months and years.

* **`Instant.civil`**, **`Instant.shift`** — the instant of a civil time, and an instant as a clock at
  an offset shows it.
* **`Instant.day_shift_civil`**, **`Instant.clock_shift_civil`** — such a clock shows that civil time.
* **`Instant.ofCivil?_eq`** — between the years 0 and 9999 there is an instant for every day and time
  that exist.
* **`Instant.ofCivil?_zero`** — and without an offset for those of every year that instants range over.
* **`ProperInstant.civil`**, **`Instant.proper_of_ofCivil?`** — at offsets of whole minutes a civil time
  is that of a proper instant.
-/

namespace RecordGuard

/-- The days of a year have the numbers from that of its first day on. -/
theorem Day.number_bounds {d : Day} (h : d.Exists) :
    daysBeforeYear d.year - 719162 ≤ d.number ∧ d.number < daysBeforeYear (d.year + 1) - 719162 := by
  have hdays := daysBefore_lt h
  have hyear := daysBeforeYear_succ d.year
  rw [number_eq_daysBefore h]
  omega

/-- A day whose number is at most one off those of the years 0 to 9999 is one of an instant. -/
theorem Day.inRange_ofNumber {n : Int} (hlow : daysBeforeYear 0 - 719162 - 1 ≤ n)
    (hhigh : n ≤ daysBeforeYear 10000 - 719162) : (ofNumber n).InRange := by
  obtain ⟨hlower, hupper⟩ := number_bounds (exists_ofNumber n)
  rw [number_ofNumber] at hlower hupper
  -- the years that instants range over go on for more than a day at both ends
  have hfirst : daysBeforeYear (-262143) < daysBeforeYear 0 - 1 := by decide
  have hlast : daysBeforeYear 10000 < daysBeforeYear 262143 := by decide
  constructor
  · by_contra hyear
    have := daysBeforeYear_mono (show (ofNumber n).year + 1 ≤ -262143 by omega)
    omega
  · by_contra hyear
    have := daysBeforeYear_mono (show 262143 ≤ (ofNumber n).year by omega)
    omega

namespace Instant

/-- The instant at which a clock `offset` seconds ahead of universal time shows a day and a time. The
second 60 is the second 59 and a second of nanoseconds. -/
def civil (d : Day) (c : Clock) (offset : Int) : Instant :=
  ⟨d.number * 86400 + (c.hour * 3600 + c.minute * 60 + min c.second 59 : Nat) - offset,
    c.nanos + if c.second = 60 then nanosPerSecond else 0⟩

/-- The instant as a clock `offset` seconds ahead of universal time shows it. -/
def shift (offset : Int) (i : Instant) : Instant := ⟨i.seconds + offset, i.nanos⟩

variable {d : Day} {c : Clock}

/-- **A clock at the offset shows the day.** -/
theorem day_shift_civil (hd : d.Exists) (hc : c.Exists) (offset : Int) :
    ((civil d c offset).shift offset).day = d := by
  obtain ⟨hhour, hminute, -, -⟩ := hc
  have hnumber : ((civil d c offset).shift offset).seconds / 86400 = d.number := by
    simp only [civil, shift]
    omega
  rw [day, hnumber, Day.ofNumber_number hd]

/-- **A clock at the offset shows the time of day**, the second 60 included. -/
theorem clock_shift_civil (hc : c.Exists) (offset : Int) :
    ((civil d c offset).shift offset).clock = c := by
  obtain ⟨hour, minute, second, nanos⟩ := c
  obtain ⟨hhour, hminute, hsecond, hnanos⟩ := hc
  simp only [civil, shift, clock, Clock.mk.injEq, nanosPerSecond] at *
  -- the second 60 is written as the second 59 with more nanoseconds, and shown as it was given
  split <;> omega

/-- The instant at which the clock shows a civil time that exists, as long as it is one of those there
are. -/
theorem ofCivil?_eq_civil (d : Day) (c : Clock) (offset : Int) :
    ofCivil? d c offset =
      if d.Exists ∧ d.InRange ∧ c.Exists then
        if (civil d c offset).day.InRange then some (civil d c offset) else none
      else none := by
  rw [ofCivil?]
  split
  · next h =>
    obtain ⟨hhour, hminute, hsecond, -⟩ := h.2.2
    have hcivil : (⟨d.number * 86400 +
        (c.hour * 3600 + c.minute * 60 + if c.second = 60 then 59 else c.second : Nat) - offset,
        c.nanos + if c.second = 60 then nanosPerSecond else 0⟩ : Instant) = civil d c offset := by
      rw [civil]
      congr 3
      split <;> omega
    rw [← hcivil]
  · rfl

/-- **The instant of a civil time.** -/
theorem ofCivil?_eq {offset : Int} (hyear : 0 ≤ d.year ∧ d.year ≤ 9999)
    (hoffset : -86400 < offset ∧ offset < 86400) :
    ofCivil? d c offset = if d.Exists ∧ c.Exists then some (civil d c offset) else none := by
  have hrange : d.InRange := by
    unfold Day.InRange
    omega
  rw [ofCivil?_eq_civil]
  simp only [hrange, true_and]
  split
  · next h =>
    obtain ⟨hhour, hminute, hsecond, -⟩ := h.2
    -- the offset moves the day by one at most
    obtain ⟨hlower, hupper⟩ := Day.number_bounds h.1
    have hfirst := daysBeforeYear_mono hyear.1
    have hlast := daysBeforeYear_mono (show d.year + 1 ≤ 10000 by omega)
    refine if_pos (Day.inRange_ofNumber ?_ ?_)
    · simp only [civil]
      omega
    · simp only [civil]
      omega
  · rfl

@[simp] theorem shift_zero (i : Instant) : i.shift 0 = i := by
  rw [shift, Int.add_zero]

/-- Without an offset the day in universal time is the civil one. -/
theorem ofCivil?_zero (d : Day) (c : Clock) :
    ofCivil? d c 0 = if d.Exists ∧ d.InRange ∧ c.Exists then some (civil d c 0) else none := by
  rw [ofCivil?_eq_civil]
  split
  · next h =>
    have hday := day_shift_civil h.1 h.2.2 0
    rw [shift_zero] at hday
    rw [hday]
    exact if_pos h.2.1
  · rfl

end Instant

/-! ## Proper instants -/

/-- **The instant of a civil time is proper**: an offset of whole minutes leaves the leap second at the end
of a minute. -/
def ProperInstant.civil (d : Day) {c : Clock} (hc : c.Exists) (offset : Int)
    (hoffset : offset % 60 = 0) : ProperInstant where
  toInstant := Instant.civil d c offset
  proper := by
    obtain ⟨-, -, -, hnanos⟩ := hc
    simp only [Instant.civil, Instant.Proper, nanosPerSecond] at *
    split <;> omega

/-- What is read off a clock is proper, whatever day and time it is and in whatever years. -/
theorem Instant.proper_of_ofCivil? {d : Day} {c : Clock} {offset : Int} {i : Instant}
    (hoffset : offset % 60 = 0) (h : ofCivil? d c offset = some i) : i.Proper := by
  rw [ofCivil?_eq_civil, Option.ite_none_right_eq_some, Option.ite_none_right_eq_some] at h
  obtain ⟨⟨-, -, hc⟩, -, h⟩ := h
  cases h
  exact (ProperInstant.civil d hc offset hoffset).proper

end RecordGuard
