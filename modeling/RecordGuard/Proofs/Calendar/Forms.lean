import Mathlib.Tactic.Ring
import RecordGuard.Proofs.Calendar.Civil

/-!
# Forms of written dates

A day `2026-01-15`, a day and a time of day `2026-01-15T12:00:00.25`, with a space for the `T` or
without, and a timestamp `2026-01-15T12:00:00.25+05:30`, as data: the digits of each part, what they
name, and whether there is such a thing.

* **`Digits`**, **`Fraction`** — digits and their value; of a fraction nine digits count.
* **`WrittenDay`**, **`WrittenClock`**, **`WrittenZone`**, **`WrittenDate`** — the forms.
* **`WrittenDate.Exists`**, **`WrittenDate.instant`** — whether there is what is written, and when.
-/

namespace RecordGuard

/-! ## Digits -/

theorem Field.value_cons (c : Char) (ds : List Char) :
    value (c :: ds) = (c.toNat - '0'.toNat) * 10 ^ ds.length + value ds := by
  rw [← List.singleton_append, value_append]
  simp [value]

/-- The value of a run of digits stays below the power of ten of its length. -/
theorem Field.value_lt {ds : List Char} (hds : ∀ c ∈ ds, c.isDigit = true) :
    value ds < 10 ^ ds.length := by
  induction ds with
  | nil => decide
  | cons c ds ih =>
    rw [List.forall_mem_cons] at hds
    have hrest := ih hds.2
    -- a digit is at most nine, by the code of its character
    have hdigit : c.toNat - '0'.toNat ≤ 9 := by
      have hc := hds.1
      simp only [Char.isDigit, Bool.and_eq_true, decide_eq_true_eq, UInt32.le_iff_toNat_le] at hc
      have hnine : c.toNat ≤ 57 := hc.2
      have hzero : '0'.toNat = 48 := rfl
      omega
    have hscaled := Nat.mul_le_mul_right (10 ^ ds.length) hdigit
    rw [value_cons, List.length_cons, Nat.pow_succ]
    omega

/-- As many decimal digits. -/
structure Digits (width : Nat) where
  chars : List Char
  length_eq : chars.length = width
  isDigit : ∀ c ∈ chars, c.isDigit = true

namespace Digits

variable {width : Nat}

def value (d : Digits width) : Nat := Field.value d.chars

theorem value_lt (d : Digits width) : d.value < 10 ^ width := by
  have h := Field.value_lt d.isDigit
  rwa [d.length_eq] at h

theorem number?_append (d : Digits width) {low high : Nat} (hlow : low ≤ width) (hhigh : width ≤ high)
    {x : List Char} (hx : Ends Char.isDigit x) :
    Field.number? low high (d.chars ++ x) = some (d.value, x) :=
  Field.number?_append d.isDigit hx (by rwa [d.length_eq]) (by rwa [d.length_eq])

end Digits

/-- A fraction of a second: digits, of which there is at least one. -/
structure Fraction where
  digits : List Char
  isDigit : ∀ c ∈ digits, c.isDigit = true
  ne_nil : digits ≠ []

/-- The nanoseconds of a fraction, what is smaller cut off. -/
def Fraction.nanos (f : Fraction) : Nat :=
  Field.value f.digits * nanosPerSecond / 10 ^ f.digits.length

/-- A fraction is less than a second. -/
theorem Fraction.nanos_lt (f : Fraction) : f.nanos < nanosPerSecond := by
  have hvalue := Field.value_lt f.isDigit
  have hsecond : 0 < nanosPerSecond := by decide
  refine Nat.div_lt_of_lt_mul ?_
  exact Nat.mul_lt_mul_of_pos_right hvalue hsecond

/-- Nine digits count, and the others say less than a nanosecond. -/
theorem Fraction.nanos_eq (f : Fraction) :
    f.nanos = Field.value (f.digits.take 9) * 10 ^ (9 - (f.digits.take 9).length) := by
  -- the digits that count, and the others, of which there are none unless nine count
  obtain ⟨kept, rest, hdigits, hkept, hlength, hrest⟩ : ∃ kept rest, f.digits = kept ++ rest ∧
      f.digits.take 9 = kept ∧ kept.length ≤ 9 ∧ (rest = [] ∨ kept.length = 9) := by
    refine ⟨f.digits.take 9, f.digits.drop 9, (List.take_append_drop _ _).symm, rfl, ?_, ?_⟩
    · exact List.length_take_le 9 f.digits
    · rw [List.drop_eq_nil_iff, List.length_take]
      omega
  have hvalue : Field.value rest < 10 ^ rest.length :=
    Field.value_lt fun c hc => f.isDigit c (by rw [hdigits]; exact List.mem_append_right _ hc)
  -- the others do not make up a nanosecond, so dividing leaves nothing of them
  have hsmall : Field.value rest * 10 ^ (9 - kept.length) < 10 ^ rest.length := by
    rcases hrest with rfl | hnine
    · exact Nat.lt_of_le_of_lt (Nat.zero_mul _).le (by decide)
    · rwa [hnine, Nat.sub_self, Nat.pow_zero, Nat.mul_one]
  have hsecond : nanosPerSecond = 10 ^ (9 - kept.length) * 10 ^ kept.length := by
    rw [← Nat.pow_add, Nat.sub_add_cancel hlength]
    rfl
  calc
    f.nanos = (Field.value kept * 10 ^ rest.length + Field.value rest) *
          (10 ^ (9 - kept.length) * 10 ^ kept.length) / 10 ^ (kept.length + rest.length) := by
      rw [nanos, hdigits, Field.value_append, List.length_append, hsecond]
    _ = (10 ^ rest.length * (Field.value kept * 10 ^ (9 - kept.length)) +
          Field.value rest * 10 ^ (9 - kept.length)) / 10 ^ rest.length := by
      rw [Nat.pow_add, ← Nat.mul_assoc, Nat.mul_comm (10 ^ kept.length),
        Nat.mul_div_mul_right _ _ (Nat.pow_pos (by decide)), Nat.add_mul]
      congr 2
      ring
    _ = Field.value kept * 10 ^ (9 - kept.length) := by
      rw [Nat.mul_add_div (Nat.pow_pos (by decide)), Nat.div_eq_of_lt hsmall, Nat.add_zero]
    _ = _ := by rw [hkept]

/-! ## Forms -/

/-- A day, with four, two and two digits. -/
structure WrittenDay where
  year : Digits 4
  month : Digits 2
  day : Digits 2

namespace WrittenDay

def chars (d : WrittenDay) : List Char :=
  d.year.chars ++ '-' :: (d.month.chars ++ '-' :: d.day.chars)

def toDay (d : WrittenDay) : Day := ⟨d.year.value, d.month.value, d.day.value⟩

/-- Four digits are a year up to 9999. -/
theorem year_bounds (d : WrittenDay) : 0 ≤ d.toDay.year ∧ d.toDay.year ≤ 9999 := by
  have hyear := d.year.value_lt
  simp only [toDay]
  omega

end WrittenDay

/-- A time of day, with two digits for each of its parts and perhaps a fraction. -/
structure WrittenClock where
  hour : Digits 2
  minute : Digits 2
  second : Digits 2
  fraction : Option Fraction

namespace WrittenClock

def fractionChars (c : WrittenClock) : List Char :=
  match c.fraction with
  | none => []
  | some f => '.' :: f.digits

def chars (c : WrittenClock) : List Char :=
  c.hour.chars ++ ':' :: (c.minute.chars ++ ':' :: (c.second.chars ++ c.fractionChars))

def nanos (c : WrittenClock) : Nat := (c.fraction.map Fraction.nanos).getD 0

def toClock (c : WrittenClock) : Clock := ⟨c.hour.value, c.minute.value, c.second.value, c.nanos⟩

/-- The second 60 is a leap second. -/
def Exists (c : WrittenClock) : Prop := c.hour.value ≤ 23 ∧ c.minute.value ≤ 59 ∧ c.second.value ≤ 60

instance (c : WrittenClock) : Decidable c.Exists := by unfold Exists; infer_instance

/-- A fraction is always less than a second. -/
theorem exists_toClock_iff (c : WrittenClock) : c.toClock.Exists ↔ c.Exists := by
  have hnanos : c.nanos < nanosPerSecond := by
    unfold nanos
    cases c.fraction with
    | none => decide
    | some f => exact f.nanos_lt
  simp [Clock.Exists, toClock, Exists, hnanos]

end WrittenClock

/-- The sign of an offset, for which either minus may be used. -/
inductive OffsetSign where
  | plus
  | minus
  | longMinus

def OffsetSign.char : OffsetSign → Char
  | plus => '+'
  | minus => '-'
  | longMinus => '\u2212'

/-- An offset from universal time: none, or a sign, hours and minutes. -/
inductive WrittenZone where
  | utc
  | offset (sign : OffsetSign) (hours minutes : Digits 2)

namespace WrittenZone

def chars : WrittenZone → List Char
  | utc => ['Z']
  | offset sign hours minutes => sign.char :: (hours.chars ++ ':' :: minutes.chars)

/-- The offset in seconds. -/
def seconds : WrittenZone → Int
  | utc => 0
  | offset .plus hours minutes => (hours.value * 3600 + minutes.value * 60 : Nat)
  | offset _ hours minutes => -(hours.value * 3600 + minutes.value * 60 : Nat)

def Exists : WrittenZone → Prop
  | utc => True
  | offset _ hours minutes => hours.value ≤ 23 ∧ minutes.value ≤ 59

instance : (z : WrittenZone) → Decidable z.Exists
  | utc => inferInstanceAs (Decidable True)
  | offset _ hours minutes => inferInstanceAs (Decidable (hours.value ≤ 23 ∧ minutes.value ≤ 59))

/-- An offset that exists is less than a day. -/
theorem seconds_bounds {z : WrittenZone} (h : z.Exists) : -86400 < z.seconds ∧ z.seconds < 86400 := by
  cases z with
  | utc => decide
  | offset sign hours minutes =>
    obtain ⟨hhours, hminutes⟩ := h
    cases sign <;> simp only [seconds] <;> omega

/-- Neither a digit nor a point of the seconds can be taken for the beginning of an offset. -/
theorem exists_cons (z : WrittenZone) :
    ∃ c rest, z.chars = c :: rest ∧ c.isDigit = false ∧ c ≠ '.' := by
  cases z with
  | utc => exact ⟨'Z', [], rfl, rfl, by decide⟩
  | offset sign hours minutes =>
    exact ⟨sign.char, _, rfl, by cases sign <;> rfl, by cases sign <;> decide⟩

/-- Offsets are written in whole minutes. -/
theorem seconds_emod (z : WrittenZone) : z.seconds % 60 = 0 := by
  cases z with
  | utc => rfl
  | offset sign hours minutes => cases sign <;> simp only [seconds] <;> omega

end WrittenZone

/-- What stands between a day and a time of day. -/
inductive DayTimeMark where
  | letter
  | space

def DayTimeMark.char : DayTimeMark → Char
  | letter => 'T'
  | space => ' '

/-- A written date in one of the forms. -/
inductive WrittenDate where
  | day (d : WrittenDay)
  | dayTime (d : WrittenDay) (mark : DayTimeMark) (c : WrittenClock)
  | timestamp (d : WrittenDay) (c : WrittenClock) (z : WrittenZone)

namespace WrittenDate

def chars : WrittenDate → List Char
  | day d => d.chars
  | dayTime d mark c => d.chars ++ mark.char :: c.chars
  | timestamp d c z => d.chars ++ 'T' :: (c.chars ++ z.chars)

/-- The civil day that is written. -/
def civilDay : WrittenDate → Day
  | day d | dayTime d _ _ | timestamp d _ _ => d.toDay

/-- The time of day that is written; a day alone stands for its midnight. -/
def civilClock : WrittenDate → Clock
  | day _ => .midnight
  | dayTime _ _ c | timestamp _ c _ => c.toClock

/-- How many seconds the clock that shows this time is ahead of universal time. -/
def offset : WrittenDate → Int
  | day _ | dayTime _ _ _ => 0
  | timestamp _ _ z => z.seconds

/-- There is such a day, such a time of day and such an offset. -/
def Exists : WrittenDate → Prop
  | day d => d.toDay.Exists
  | dayTime d _ c => d.toDay.Exists ∧ c.Exists
  | timestamp d c z => d.toDay.Exists ∧ c.Exists ∧ z.Exists

instance : (w : WrittenDate) → Decidable w.Exists
  | day d => inferInstanceAs (Decidable d.toDay.Exists)
  | dayTime d _ c => inferInstanceAs (Decidable (d.toDay.Exists ∧ c.Exists))
  | timestamp d c z => inferInstanceAs (Decidable (d.toDay.Exists ∧ c.Exists ∧ z.Exists))

/-- The instant that is written. -/
def instant (w : WrittenDate) : Instant := .civil w.civilDay w.civilClock w.offset

/-- The instant, if there is one. -/
def instant? (w : WrittenDate) : Option Instant := if w.Exists then some w.instant else none

end WrittenDate

end RecordGuard
