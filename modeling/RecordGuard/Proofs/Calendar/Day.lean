import Mathlib.Algebra.Order.Ring.Nat
import Mathlib.Data.Nat.Init
import Mathlib.Tactic.SplitIfs
import RecordGuard.Calendar.Day

/-!
# Days and their numbers

Numbers count the days that exist one by one, and every number is the number of exactly one of them.

* **`Day.next`**, **`Day.number_next`** — the day after a day, by the lengths of months and years, has
  the next number.
* **`Day.number_ofNumber`**, **`Day.exists_ofNumber`** — the day with a number exists and has that
  number.
* **`Day.number_injOn`**, **`Day.ofNumber_number`** — a day that exists is the one with its number.
-/

namespace RecordGuard

/-! ## Months and years -/

def yearLength (year : Int) : Nat := if isLeapYear year then 366 else 365

theorem isLeapYear_iff (year : Int) :
    isLeapYear year = true ↔ year % 4 = 0 ∧ (year % 100 ≠ 0 ∨ year % 400 = 0) := by
  simp [isLeapYear]

/-- The next year begins where this one ends. -/
theorem daysBeforeYear_succ (year : Int) :
    daysBeforeYear (year + 1) = daysBeforeYear year + yearLength year := by
  unfold daysBeforeYear yearLength
  dsimp only
  split
  · next hleap =>
    rw [isLeapYear_iff] at hleap
    omega
  · next hleap =>
    rw [isLeapYear_iff] at hleap
    omega

/-- Later years have more days in front of them. -/
theorem daysBeforeYear_mono {y z : Int} (h : y ≤ z) : daysBeforeYear y ≤ daysBeforeYear z := by
  unfold daysBeforeYear
  dsimp only
  omega

/-- The next month begins where this one ends. -/
theorem daysBeforeMonth_succ (year : Int) {month : Nat} (h : 1 ≤ month) :
    daysBeforeMonth year (month + 1) = daysBeforeMonth year month + daysInMonth year month := by
  cases month with
  | zero => omega
  | succ month => rfl

/-- The twelve months make up the year. -/
theorem daysBeforeMonth_thirteen (year : Int) : daysBeforeMonth year 13 = yearLength year := by
  unfold yearLength
  cases hleap : isLeapYear year <;> simp [daysBeforeMonth, daysInMonth, hleap]

theorem daysBeforeMonth_december (year : Int) :
    daysBeforeMonth year 12 + daysInMonth year 12 = yearLength year :=
  daysBeforeMonth_thirteen year

/-- Later months have more days of the year in front of them. -/
theorem daysBeforeMonth_mono (year : Int) {m n : Nat} (h : m ≤ n) :
    daysBeforeMonth year m ≤ daysBeforeMonth year n := by
  induction n, h using Nat.le_induction with
  | base => exact le_rfl
  | succ n _ ih =>
    cases n with
    | zero => exact ih
    | succ n => exact ih.trans (Nat.le_add_right _ _)

/-- There is a first day in every month. -/
theorem daysInMonth_pos (year : Int) (month : Nat) : 0 < daysInMonth year month := by
  unfold daysInMonth
  split
  · split <;> decide
  all_goals decide

namespace Day

variable {d e : Day}

/-! ## Counting on -/

/-- The day after. -/
def next (d : Day) : Day :=
  if d.day < daysInMonth d.year d.month then ⟨d.year, d.month, d.day + 1⟩
  else if d.month < 12 then ⟨d.year, d.month + 1, 1⟩
  else ⟨d.year + 1, 1, 1⟩

/-- The day after a day that exists exists. -/
theorem exists_next (h : d.Exists) : d.next.Exists := by
  obtain ⟨hmonth, hmonth', hday, hday'⟩ := h
  unfold next
  -- in the month, at its end, at the end of the year
  split_ifs
  · next hday => exact ⟨hmonth, hmonth', Nat.succ_pos _, hday⟩
  · next hmonth => exact ⟨Nat.succ_pos _, hmonth, le_rfl, daysInMonth_pos _ _⟩
  · exact ⟨le_rfl, show 1 ≤ 12 by decide, le_rfl, daysInMonth_pos _ _⟩

/-- **The day after has the next number.** Days count from 1 January 1970. -/
theorem number_next (h : d.Exists) : d.next.number = d.number + 1 := by
  obtain ⟨hmonth, hmonth', -, hday⟩ := h
  have hsucc := daysBeforeMonth_succ d.year hmonth
  unfold next number
  split_ifs with hlast hdecember
  · push_cast
    omega
  · dsimp only
    omega
  · -- the last day of a year
    have htwelve : d.month = 12 := by omega
    have hyear := daysBeforeYear_succ d.year
    have hmonths := daysBeforeMonth_december d.year
    have hfirst : daysBeforeMonth (d.year + 1) 1 = 0 := rfl
    rw [htwelve] at hday hlast ⊢
    dsimp only
    omega

example : (⟨1970, 1, 1⟩ : Day).number = 0 := by decide

/-! ## The day with a number -/

/-- Where a day is found in its year. -/
theorem daysBeforeMonth_placeInYear (year : Int) {month : Nat} (rest fuel : Nat) (h : 1 ≤ month) :
    daysBeforeMonth year (placeInYear year month rest fuel).1 +
      (placeInYear year month rest fuel).2 = daysBeforeMonth year month + rest + 1 := by
  induction fuel generalizing month rest with
  | zero => rfl
  | succ fuel ih =>
    rw [placeInYear]
    split
    · rfl
    · have hfound := ih (rest - daysInMonth year month) (show 1 ≤ month + 1 by omega)
      have hsucc := daysBeforeMonth_succ year h
      omega

/-- A day that lies in the year is found in one of its months. -/
theorem placeInYear_exists {year : Int} {month rest fuel : Nat} (h : 1 ≤ month)
    (hfuel : month + fuel = 12) (hrest : daysBeforeMonth year month + rest < yearLength year) :
    let place := placeInYear year month rest fuel
    1 ≤ place.1 ∧ place.1 ≤ 12 ∧ 1 ≤ place.2 ∧ place.2 ≤ daysInMonth year place.1 := by
  have hsucc := daysBeforeMonth_succ year h
  induction fuel generalizing month rest with
  | zero =>
    have hdecember : month = 12 := hfuel
    have hmonths := daysBeforeMonth_december year
    subst hdecember
    refine ⟨h, le_rfl, Nat.succ_pos _, ?_⟩
    show rest + 1 ≤ daysInMonth year 12
    omega
  | succ fuel ih =>
    rw [placeInYear]
    split
    · exact ⟨h, by omega, Nat.succ_pos _, by dsimp only; omega⟩
    · exact ih (by omega) (by omega) (by omega) (daysBeforeMonth_succ year (by omega))

section

variable (cycle : Int) {century span year : Nat} (hcentury : century ≤ 3) (hspan : span ≤ 24)
  (hyear : year ≤ 3)

include hcentury hspan hyear

/-- The days in front of a year, counted by cycles of four hundred years, centuries, spans of four
years and years. -/
theorem daysBeforeYear_split :
    daysBeforeYear (400 * cycle + 100 * century + 4 * span + year + 1) =
      146097 * cycle + 36524 * century + 1461 * span + 365 * year := by
  unfold daysBeforeYear
  dsimp only
  omega

/-- Leap is the last year of a span, unless the span is the last of a century that is not the last of
its cycle. -/
theorem isLeapYear_split :
    isLeapYear (400 * cycle + 100 * century + 4 * span + year + 1) = true ↔
      year = 3 ∧ (span ≠ 24 ∨ century = 3) := by
  rw [isLeapYear_iff]
  omega

end

/-- The number taken apart: the year of its day, and how many days of the year are in front of it. -/
theorem exists_ofNumber_eq (n : Int) :
    ∃ (year : Int) (rest : Nat), daysBeforeYear year + rest = n + 719162 ∧ rest < yearLength year ∧
      ofNumber n = ⟨year, (placeInYear year 1 rest 11).1, (placeInYear year 1 rest 11).2⟩ := by
  let fromOne := n + 719162
  let inCycle := (fromOne % 146097).toNat
  let century := min 3 (inCycle / 36524)
  let inCentury := inCycle - century * 36524
  let span := inCentury / 1461
  let inSpan := inCentury % 1461
  let yearOfSpan := min 3 (inSpan / 365)
  -- the centuries of a cycle and the years of a span are counted up to the fourth, which has a day
  -- more
  have hinCycle : inCycle < 146097 := by omega
  have hcentury : century ≤ 3 := Nat.min_le_left _ _
  have hinCentury : inCentury < 36524 ∨ century = 3 ∧ inCentury < 36525 := by omega
  have hspan : span ≤ 24 := by omega
  have hyear : yearOfSpan ≤ 3 := Nat.min_le_left _ _
  refine ⟨400 * (fromOne / 146097) + 100 * century + 4 * span + yearOfSpan + 1,
    inSpan - 365 * yearOfSpan, ?_, ?_, rfl⟩
  · rw [daysBeforeYear_split _ hcentury hspan hyear]
    omega
  · -- only in a leap year are 365 days in front of a day
    have hleap := isLeapYear_split (fromOne / 146097) hcentury hspan hyear
    unfold yearLength
    split
    · omega
    · next hcommon =>
      rw [hleap] at hcommon
      omega

/-- **The day with a number has that number.** -/
theorem number_ofNumber (n : Int) : (ofNumber n).number = n := by
  obtain ⟨year, rest, hnumber, -, hday⟩ := exists_ofNumber_eq n
  have hplace := daysBeforeMonth_placeInYear year rest 11 le_rfl
  have hjanuary : daysBeforeMonth year 1 = 0 := rfl
  rw [hday, number]
  dsimp only
  omega

/-- **The day with a number exists.** -/
theorem exists_ofNumber (n : Int) : (ofNumber n).Exists := by
  obtain ⟨year, rest, -, hrest, hday⟩ := exists_ofNumber_eq n
  rw [hday]
  exact placeInYear_exists le_rfl rfl (by simpa [daysBeforeMonth] using hrest)

/-! ## One day for each number -/

/-- How many days of its year a day has in front of it. -/
def daysBefore (d : Day) : Nat := daysBeforeMonth d.year d.month + d.day - 1

/-- The number of a day, by its year and its place there. -/
theorem number_eq_daysBefore (h : d.Exists) :
    d.number = daysBeforeYear d.year + d.daysBefore - 719162 := by
  obtain ⟨-, -, hday, -⟩ := h
  rw [number, daysBefore]
  omega

/-- A day lies in its year. -/
theorem daysBefore_lt (h : d.Exists) : d.daysBefore < yearLength d.year := by
  obtain ⟨hmonth, hmonth', hday, hday'⟩ := h
  have hsucc := daysBeforeMonth_succ d.year hmonth
  have hyear := daysBeforeMonth_mono d.year (show d.month + 1 ≤ 13 by omega)
  rw [daysBeforeMonth_thirteen] at hyear
  rw [daysBefore]
  omega

/-- In one year, the days of an earlier month come first. -/
theorem daysBefore_lt_of_month_lt (hd : d.Exists) (he : e.Exists) (hyear : d.year = e.year)
    (hmonth : d.month < e.month) : d.daysBefore < e.daysBefore := by
  obtain ⟨hd1, -, hd2, hd3⟩ := hd
  obtain ⟨-, -, he2, -⟩ := he
  have hsucc := daysBeforeMonth_succ d.year hd1
  have hlater := daysBeforeMonth_mono d.year (show d.month + 1 ≤ e.month from hmonth)
  rw [daysBefore, daysBefore, ← hyear]
  omega

/-- The days of an earlier year come first. -/
theorem number_lt_of_year_lt (hd : d.Exists) (he : e.Exists) (hyear : d.year < e.year) :
    d.number < e.number := by
  have hlast := daysBefore_lt hd
  have hsucc := daysBeforeYear_succ d.year
  have hlater := daysBeforeYear_mono (Int.add_one_le_of_lt hyear)
  rw [number_eq_daysBefore hd, number_eq_daysBefore he]
  omega

/-- **Days that exist and have one number are one day.** -/
theorem number_injOn (hd : d.Exists) (he : e.Exists) (h : d.number = e.number) : d = e := by
  -- year, month and day are told apart in this order, each by the days in front of it
  have hyear : d.year = e.year := by
    rcases lt_trichotomy d.year e.year with hlt | heq | hlt
    · exact absurd h (number_lt_of_year_lt hd he hlt).ne
    · exact heq
    · exact absurd h (number_lt_of_year_lt he hd hlt).ne'
  have hdays : d.daysBefore = e.daysBefore := by
    rw [number_eq_daysBefore hd, number_eq_daysBefore he, hyear] at h
    omega
  have hmonth : d.month = e.month := by
    rcases Nat.lt_trichotomy d.month e.month with hlt | heq | hlt
    · exact absurd hdays (daysBefore_lt_of_month_lt hd he hyear hlt).ne
    · exact heq
    · exact absurd hdays (daysBefore_lt_of_month_lt he hd hyear.symm hlt).ne'
  have hday : d.day = e.day := by
    obtain ⟨-, -, hd2, -⟩ := hd
    obtain ⟨-, -, he2, -⟩ := he
    rw [daysBefore, daysBefore, hyear, hmonth] at hdays
    omega
  cases d
  cases e
  exact Day.mk.injEq .. ▸ ⟨hyear, hmonth, hday⟩

/-- **A day that exists is the one with its number.** -/
theorem ofNumber_number (h : d.Exists) : ofNumber d.number = d :=
  number_injOn (exists_ofNumber _) h (number_ofNumber _)

end Day

end RecordGuard
