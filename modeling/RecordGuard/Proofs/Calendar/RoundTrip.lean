import RecordGuard.Guard.Basic
import RecordGuard.Proofs.Calendar.Written
import RecordGuard.Value.Text

/-!
# Dates that are shown and read again

The timestamp of an instant between the years 0 and 9999 is a written date with all of its digits. It
is the date on which the instant lies, so the instant that is read there is the one that was shown.

* **`ProperInstant.exists_clock`**, **`ProperInstant.civil_day_clock`** — an instant is the one of its own day and
  time of day.
* **`Timestamp.exists_writtenDay`**, **`Timestamp.exists_writtenClock`** — the two halves of a
  timestamp as written dates.
* **`Timestamp.exists_writtenDate`** — a timestamp is the written date of its instant.
* **`Instant.ofText?_timestamp`** — the headline.
-/

namespace RecordGuard

/-! ## An instant and its civil time -/

namespace ProperInstant

/-- A proper instant lies in a second that clocks show. -/
theorem exists_clock (i : ProperInstant) : i.clock.Exists := by
  obtain ⟨hnanos, hleap⟩ := i.proper
  simp only [Clock.Exists, Instant.clock, nanosPerSecond] at *
  omega

/-- **A proper instant is the one of its day and time of day.** -/
theorem civil_day_clock (i : ProperInstant) : Instant.civil i.day i.clock 0 = i.toInstant := by
  have hday := Instant.day_shift_civil (Day.exists_ofNumber (i.seconds / 86400)) i.exists_clock 0
  have hclock := Instant.clock_shift_civil (d := i.day) i.exists_clock 0
  rw [Instant.shift_zero] at hday hclock
  -- both are proper and show the same day and time of day
  let j : ProperInstant := .civil i.day i.exists_clock 0 rfl
  have hsame : j = i := eq_of_day_of_clock hday hclock
  exact congrArg toInstant hsame

end ProperInstant

/-! ## What is printed is a written date -/

/-- The digits of a number that fits. -/
def Digits.ofNat {width n : Nat} (hwidth : 0 < width) (h : n < 10 ^ width) : Digits width :=
  ⟨Timestamp.padded width n, Timestamp.length_padded hwidth h, Timestamp.isDigit_padded width n⟩

@[simp] theorem Digits.value_ofNat {width n : Nat} (hwidth : 0 < width) (h : n < 10 ^ width) :
    (ofNat hwidth h).value = n :=
  Timestamp.value_padded width n

namespace Timestamp

/-- A day in the years 0 to 9999 fits into the digits of a written day. -/
theorem exists_writtenDay {d : Day} (hd : d.Exists) (hyear : 0 ≤ d.year ∧ d.year ≤ 9999) :
    ∃ w : WrittenDay, w.chars = dayChars d ∧ w.toDay = d := by
  obtain ⟨-, hmonth, -, hday⟩ := hd
  have hlength : daysInMonth d.year d.month ≤ 31 := by
    unfold daysInMonth
    split
    · split <;> decide
    all_goals decide
  -- each part fits its digits because there is such a day
  refine ⟨⟨.ofNat (n := d.year.toNat) (by decide) (by omega), .ofNat (n := d.month) (by decide)
    (by omega), .ofNat (n := d.day) (by decide) (by omega)⟩, ?_, ?_⟩
  · rw [dayChars, yearChars, if_pos hyear]
    simp [WrittenDay.chars, Digits.ofNat]
  · simp [WrittenDay.toDay, hyear.1]

/-- Behind the point there are digits, or there is no point. -/
theorem exists_fraction (nanos : Nat) (hour minute second : Digits 2) :
    ∃ f : Option Fraction, (WrittenClock.mk hour minute second f).fractionChars = fractionChars nanos := by
  have hpadded : ∀ width n, ∃ f : Option Fraction,
      (WrittenClock.mk hour minute second f).fractionChars = '.' :: padded width n :=
    fun width n => ⟨some ⟨padded width n, isDigit_padded width n, padded_ne_nil width n⟩, rfl⟩
  unfold fractionChars
  -- nothing, or three, six or nine digits
  split_ifs
  · exact ⟨none, rfl⟩
  all_goals exact hpadded _ _

/-- A time of day that clocks show fits into the digits of a written one, its nanoseconds into the
fraction. -/
theorem exists_writtenClock {c : Clock} (hc : c.Exists) :
    ∃ w : WrittenClock, w.chars = clockChars c ∧ w.toClock = c := by
  obtain ⟨hhour, hminute, hsecond, hnanos⟩ := hc
  let hour : Digits 2 := .ofNat (n := c.hour) (by decide) (by omega)
  let minute : Digits 2 := .ofNat (n := c.minute) (by decide) (by omega)
  let second : Digits 2 := .ofNat (n := c.second) (by decide) (by omega)
  obtain ⟨f, hf⟩ := exists_fraction c.nanos hour minute second
  refine ⟨⟨hour, minute, second, f⟩, ?_, ?_⟩
  · rw [WrittenClock.chars, hf]
    simp [clockChars, hour, minute, second, Digits.ofNat]
  · -- the nanoseconds are what is read behind the point
    have hread := WrittenClock.fraction?_append ⟨hour, minute, second, f⟩ ends_nil (by simp)
    rw [hf, fraction?_fractionChars hnanos ends_nil (by simp)] at hread
    rw [WrittenClock.toClock, ← (Prod.mk.inj (Option.some.inj hread)).1]
    simp [hour, minute, second]

/-- Universal time, as an offset of no hours and no minutes. -/
def zeroOffset : WrittenZone :=
  .offset .plus (.ofNat (n := 0) (by decide) (by decide)) (.ofNat (n := 0) (by decide) (by decide))

/-- **The timestamp of an instant is the written date of that instant.** -/
theorem exists_writtenDate (i : ProperInstant) (hyear : 0 ≤ i.day.year ∧ i.day.year ≤ 9999) :
    ∃ w : WrittenDate, w.chars = chars i.toInstant ∧ w.Exists ∧ w.instant = i.toInstant := by
  have hday : i.day.Exists := Day.exists_ofNumber _
  obtain ⟨d, hd, hd'⟩ := exists_writtenDay hday hyear
  obtain ⟨c, hc, hc'⟩ := exists_writtenClock i.exists_clock
  refine ⟨.timestamp d c zeroOffset, ?_, ⟨?_, ?_, by decide⟩, ?_⟩
  · rw [WrittenDate.chars, hd, hc, chars]
    simp [zeroOffset]
    rfl
  · rwa [hd']
  · rw [← c.exists_toClock_iff, hc']
    exact i.exists_clock
  · rw [WrittenDate.instant, WrittenDate.civilDay, WrittenDate.civilClock, hd', hc']
    exact i.civil_day_clock

end Timestamp

/-! ## The headline -/

/-- A text that names an instant is accepted wherever it is asked about, and nothing is left behind. -/
theorem Guard.verdict_dateString {text : String} {i : Instant} (h : Instant.ofText? text = some i)
    (s : Session) : dateString.verdict (.string text) s = (some true, s) := by
  have hpredicate : Kind.dateString.predicate (.string text) = .answer true := by
    rw [Kind.predicate, h]
  rw [verdict, dateString, check, hpredicate]
  rfl

/-- **Dates survive being shown.** The text of a date between the years 0 and 9999 holds a timestamp that
is accepted as the text of a date, and that names the instant of the date again. White space may stand
around it.

The instant is a proper one: there are less than two seconds' worth of nanoseconds, and a leap second,
which the second of these is, follows the last second of a minute. So leap seconds are included where
universal time may have them. Anywhere else such nanoseconds only spell the next second in another way,
and the timestamp, being the same, names that one. -/
theorem Instant.ofText?_timestamp (i : ProperInstant)
    (hyear : 0 ≤ i.day.year ∧ i.day.year ≤ 9999) {before after : List Char}
    (hbefore : ∀ c ∈ before, isBlank c = true) (hafter : ∀ c ∈ after, isBlank c = true) :
    (Value.date (some i.toInstant)).text = "Date(" ++ i.timestamp ++ ")" ∧
      ofText? (String.ofList before ++ i.timestamp ++ String.ofList after) = some i.toInstant ∧
      ∀ s, Guard.dateString.verdict
        (.string (String.ofList before ++ i.timestamp ++ String.ofList after)) s = (some true, s) := by
  obtain ⟨w, hchars, hexists, hinstant⟩ := Timestamp.exists_writtenDate i hyear
  have htext : String.ofList before ++ i.timestamp ++ String.ofList after =
      String.ofList (before ++ w.chars ++ after) := by
    rw [hchars, timestamp, ← String.ofList_append, ← String.ofList_append]
  -- with white space around it, the timestamp is read as the written date that it is
  have hread : ofText? (String.ofList (before ++ w.chars ++ after)) = some i.toInstant := by
    have hforms := w.readAs.findSome?_eq
    rw [← w.trim_chars hbefore hafter,
      ← String.toList_ofList (l := before ++ w.chars ++ after)] at hforms
    refine hforms.trans ?_
    rw [WrittenDate.instant?, if_pos hexists, hinstant]
  refine ⟨?_, ?_, fun s => ?_⟩
  · have hshown : (Value.date (some i.toInstant)).chars =
        "Date(".toList ++ Timestamp.chars i.toInstant ++ [')'] := rfl
    have hclose : String.ofList [')'] = ")" := by decide
    rw [Value.text, hshown, String.ofList_append, String.ofList_append, String.ofList_toList,
      hclose, timestamp]
  · rw [htext, hread]
  · rw [htext]
    exact Guard.verdict_dateString hread s

/-- The leap second at the end of 2016, the last of December and of the year, with a fraction that needs
all nine digits. -/
theorem Instant.ofText?_timestamp_leapSecond :
    let i : ProperInstant := ⟨⟨1483228799, 1123456780⟩, by decide⟩
    i.day = ⟨2016, 12, 31⟩ ∧
      (Value.date (some i.toInstant)).text = "Date(2016-12-31T23:59:60.123456780+00:00)" ∧
      ofText? "\t2016-12-31T23:59:60.123456780+00:00 \n" = some i.toInstant := by
  intro i
  have hday : i.day = ⟨2016, 12, 31⟩ := by decide
  have hbefore : ∀ c ∈ ['\t'], isBlank c = true := List.all_eq_true.mp rfl
  have hafter : ∀ c ∈ [' ', '\n'], isBlank c = true := List.all_eq_true.mp rfl
  have hyear : 0 ≤ i.day.year ∧ i.day.year ≤ 9999 := by
    rw [hday]
    decide
  obtain ⟨htext, hread, -⟩ := ofText?_timestamp i hyear hbefore hafter
  have htimestamp : i.timestamp = "2016-12-31T23:59:60.123456780+00:00" := by
    decide
  have hshown : "Date(" ++ "2016-12-31T23:59:60.123456780+00:00" ++ ")" =
      "Date(2016-12-31T23:59:60.123456780+00:00)" := by
    decide
  have hspaced : String.ofList ['\t'] ++ "2016-12-31T23:59:60.123456780+00:00" ++
      String.ofList [' ', '\n'] = "\t2016-12-31T23:59:60.123456780+00:00 \n" := by
    decide
  rw [htimestamp, hshown] at htext
  rw [htimestamp, hspaced] at hread
  exact ⟨hday, htext, hread⟩

end RecordGuard
