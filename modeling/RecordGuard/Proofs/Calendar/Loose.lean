import RecordGuard.Proofs.Calendar.Written

/-!
# Loosely written dates

Days and times of day without an offset need not have all of their digits. Where a number is read,
white space may stand in front of it; months, days, hours, minutes and seconds may have one digit;
a year may have fewer than four, or a sign and any number of them. This module says as data what is
read so, and that it is: each reader takes exactly the texts that are written like this.

* **`Blanks`**, **`DigitRun`**, **`LoosePair`**, **`LooseYear`** — the parts.
* **`LooseDay`**, **`LooseClock`**, **`LooseDate`** — the forms, and the instant that is written.
* **`PlainDate.day?_eq_some_iff`**, **`PlainDate.clock?_eq_some_iff`** — what the readers take.
* **`LooseDate.exists_iff`** — the headline, for the three readers of whole texts.
-/

namespace RecordGuard

/-! ## Parts -/

/-- White space, or nothing. -/
structure Blanks where
  chars : List Char
  isBlank : ∀ c ∈ chars, isBlank c = true

/-- Decimal digits, of which there is at least one. -/
structure DigitRun where
  chars : List Char
  isDigit : ∀ c ∈ chars, c.isDigit = true
  ne_nil : chars ≠ []

namespace DigitRun

def value (run : DigitRun) : Nat := Field.value run.chars

theorem one_le_length (run : DigitRun) : 1 ≤ run.chars.length :=
  List.length_pos_iff.mpr run.ne_nil

theorem exists_cons (run : DigitRun) : ∃ c rest, run.chars = c :: rest ∧ c.isDigit = true := by
  obtain ⟨c, rest, hchars⟩ := List.exists_cons_of_ne_nil run.ne_nil
  exact ⟨c, rest, hchars, run.isDigit c (hchars ▸ List.mem_cons_self)⟩

/-- White space ends where a run of digits begins. -/
theorem ends_isBlank (run : DigitRun) (x : List Char) : Ends isBlank (run.chars ++ x) := by
  obtain ⟨c, rest, hchars, hc⟩ := run.exists_cons
  rw [hchars]
  exact ends_cons.mpr (isBlank_of_isDigit hc)

end DigitRun

/-- A number of one or two digits, white space in front of it. -/
structure LoosePair where
  blanks : Blanks
  run : DigitRun
  length_le : run.chars.length ≤ 2

namespace LoosePair

def chars (p : LoosePair) : List Char := p.blanks.chars ++ p.run.chars

def value (p : LoosePair) : Nat := p.run.value

/-- There is no third digit that could be read. -/
def Full (p : LoosePair) : Prop := p.run.chars.length = 2

end LoosePair

/-- A year, white space in front of it: one digit to four, or a sign and digits. -/
inductive LooseYear where
  | unsigned (blanks : Blanks) (run : DigitRun) (length_le : run.chars.length ≤ 4)
  | signed (blanks : Blanks) (negative : Bool) (run : DigitRun)

namespace LooseYear

def chars : LooseYear → List Char
  | unsigned blanks run _ => blanks.chars ++ run.chars
  | signed blanks negative run => blanks.chars ++ (if negative then '-' else '+') :: run.chars

def value : LooseYear → Int
  | unsigned _ run _ => run.value
  | signed _ negative run => if negative then -(run.value : Int) else run.value

end LooseYear

/-! ## Forms -/

structure LooseDay where
  year : LooseYear
  month : LoosePair
  day : LoosePair

namespace LooseDay

def chars (d : LooseDay) : List Char :=
  d.year.chars ++ '-' :: (d.month.chars ++ '-' :: d.day.chars)

def toDay (d : LooseDay) : Day := ⟨d.year.value, d.month.value, d.day.value⟩

end LooseDay

structure LooseClock where
  hour : LoosePair
  minute : LoosePair
  second : LoosePair
  fraction : Option Fraction

namespace LooseClock

def fractionChars (c : LooseClock) : List Char :=
  match c.fraction with
  | none => []
  | some f => '.' :: f.digits

def chars (c : LooseClock) : List Char :=
  c.hour.chars ++ ':' :: (c.minute.chars ++ ':' :: (c.second.chars ++ c.fractionChars))

def nanos (c : LooseClock) : Nat := (c.fraction.map Fraction.nanos).getD 0

def toClock (c : LooseClock) : Clock := ⟨c.hour.value, c.minute.value, c.second.value, c.nanos⟩

end LooseClock

/-- A loosely written date. Where no letter stands between day and hour they have to be told apart: by
white space, or because the day has both of its digits. -/
inductive LooseDate where
  | day (d : LooseDay)
  | marked (d : LooseDay) (c : LooseClock)
  | spaced (d : LooseDay) (c : LooseClock) (apart : d.day.Full ∨ c.hour.blanks.chars ≠ [])

namespace LooseDate

def chars : LooseDate → List Char
  | day d => d.chars
  | marked d c => d.chars ++ 'T' :: c.chars
  | spaced d c _ => d.chars ++ c.chars

def civilDay : LooseDate → Day
  | day d | marked d _ | spaced d _ _ => d.toDay

/-- The time of day that is written; a day alone stands for its midnight. -/
def civilClock : LooseDate → Clock
  | day _ => .midnight
  | marked _ c | spaced _ c _ => c.toClock

/-- There is such a day, in a year that instants range over, and such a time of day. -/
def Exists (w : LooseDate) : Prop := w.civilDay.Exists ∧ w.civilDay.InRange ∧ w.civilClock.Exists

instance (w : LooseDate) : Decidable w.Exists := by unfold Exists; infer_instance

/-- The instant that is written, in universal time. -/
def instant (w : LooseDate) : Instant := .civil w.civilDay w.civilClock 0

end LooseDate

/-! ## Readers of fields -/

section

variable {cs rest : List Char}

theorem trimStart_blanks_append (b : Blanks) (hrest : Ends isBlank rest) :
    trimStart (b.chars ++ rest) = rest :=
  trimStart_eq_iff.mpr ⟨b.chars, rfl, b.isBlank, hrest⟩

namespace LooseYear

theorem trimStart_unsigned_append (blanks : Blanks) (run : DigitRun)
    (hlength : run.chars.length ≤ 4) (x : List Char) :
    trimStart ((unsigned blanks run hlength).chars ++ x) = run.chars ++ x := by
  rw [chars, List.append_assoc]
  exact trimStart_blanks_append blanks (run.ends_isBlank x)

/-- A year with a sign begins with that. -/
theorem trimStart_signed_append (blanks : Blanks) (negative : Bool) (run : DigitRun)
    (x : List Char) :
    trimStart ((signed blanks negative run).chars ++ x) =
      (if negative then '-' else '+') :: (run.chars ++ x) := by
  rw [chars, List.append_assoc]
  refine trimStart_blanks_append blanks ?_
  cases negative <;> exact ends_cons.mpr rfl

end LooseYear

/-- **Digits in front of a number end** just if white space stands before it. -/
theorem LoosePair.ends_isDigit_iff (p : LoosePair) (x : List Char) :
    Ends Char.isDigit (p.chars ++ x) ↔ p.blanks.chars ≠ [] := by
  obtain ⟨⟨blanks, hblanks⟩, run, hlength⟩ := p
  cases blanks with
  | nil =>
    obtain ⟨c, rest, hchars, hc⟩ := run.exists_cons
    simp [chars, hchars, hc]
  | cons c rest =>
    -- white space is no digit
    have hc : c.isDigit = false := by
      by_contra hdigit
      have hblank := isBlank_of_isDigit (Bool.eq_true_of_not_eq_false hdigit)
      rw [hblanks c List.mem_cons_self] at hblank
      cases hblank
    simp [chars, hc]

theorem LooseClock.ends_isDigit_iff (c : LooseClock) :
    Ends Char.isDigit c.chars ↔ c.hour.blanks.chars ≠ [] :=
  c.hour.ends_isDigit_iff _

/-- Digits that are followed by their end are read as a number if there are neither too few nor too
many of them. -/
theorem Field.number?_eq_some_iff {low high n : Nat} :
    number? low high cs = some (n, rest) ↔
      ∃ ds, cs = ds ++ rest ∧ value ds = n ∧ (∀ c ∈ ds, c.isDigit = true) ∧ low ≤ ds.length ∧
        ds.length ≤ high ∧ (ds.length = high ∨ Ends Char.isDigit rest) := by
  constructor
  · intro h
    obtain ⟨⟨ds, rest'⟩, hread, hnumber⟩ := Option.map_eq_some_iff.mp h
    cases hnumber
    obtain ⟨hcs, hds⟩ := digits?_eq_some_iff.mp hread
    exact ⟨ds, hcs, rfl, hds⟩
  · rintro ⟨ds, hcs, rfl, hds⟩
    exact Option.map_eq_some_iff.mpr ⟨(ds, rest), digits?_eq_some_iff.mpr ⟨hcs, hds⟩, rfl⟩

/-- A number of any length goes up to where the digits end. -/
theorem Field.longNumber?_eq_some_iff {n : Nat} (hrest : Ends Char.isDigit rest) :
    longNumber? 1 cs = some (n, rest) ↔ ∃ run : DigitRun, cs = run.chars ++ rest ∧ run.value = n := by
  rw [longNumber?, number?_eq_some_iff]
  constructor
  · rintro ⟨ds, hcs, hvalue, hds, hlow, -⟩
    exact ⟨⟨ds, hds, List.ne_nil_of_length_pos hlow⟩, hcs, hvalue⟩
  · rintro ⟨run, rfl, hvalue⟩
    exact ⟨run.chars, rfl, hvalue, run.isDigit, run.one_le_length, by simp, .inr hrest⟩

/-- Up to where neither a digit nor a point follows there is a fraction, or nothing. -/
theorem Field.fraction?_eq_some_iff {n : Nat} (hrest : Ends Char.isDigit rest)
    (hpoint : rest.head? ≠ some '.') :
    fraction? cs = some (n, rest) ↔
      (cs = rest ∧ n = 0) ∨ ∃ f : Fraction, cs = '.' :: (f.digits ++ rest) ∧ f.nanos = n := by
  constructor
  · intro h
    unfold fraction? at h
    split at h
    · next digits =>
      obtain ⟨run, others, rfl, hrun, hothers⟩ := exists_append_ends Char.isDigit digits
      -- a point without digits is not read
      have hne : run ≠ [] := by
        rintro rfl
        rw [nanos?, digits?_append_eq_none hrun hothers (by decide)] at h
        cases h
      rw [nanos?_append hrun hothers hne] at h
      cases h
      exact .inr ⟨⟨run, hrun, hne⟩, rfl, Fraction.nanos_eq _⟩
    · cases h
      exact .inl ⟨rfl, rfl⟩
  · rintro (⟨rfl, rfl⟩ | ⟨f, rfl, rfl⟩)
    · exact fraction?_of_head?_ne hpoint
    · have hnanos := nanos?_append f.isDigit hrest f.ne_nil
      rw [← f.nanos_eq] at hnanos
      exact hnanos

namespace LooseClock

/-- The seconds end where the fraction begins, or where the text ends. -/
theorem ends_fractionChars (c : LooseClock) : Ends Char.isDigit c.fractionChars := by
  unfold fractionChars
  cases c.fraction with
  | none => exact ends_nil
  | some f => exact ends_cons.mpr rfl

/-- A fraction up to the end of the text is read as it is written. -/
theorem fraction?_fractionChars (c : LooseClock) :
    Field.fraction? c.fractionChars = some (c.nanos, []) := by
  refine (Field.fraction?_eq_some_iff ends_nil (by simp)).mpr ?_
  unfold fractionChars nanos
  cases c.fraction with
  | none => exact .inl ⟨rfl, rfl⟩
  | some f => exact .inr ⟨f, by rw [List.append_nil], rfl⟩

end LooseClock

namespace PlainDate

/-- **Which texts start with a number of one or two digits.** -/
theorem pair?_eq_some_iff {n : Nat} :
    pair? cs = some (n, rest) ↔
      ∃ p : LoosePair, cs = p.chars ++ rest ∧ p.value = n ∧ (p.Full ∨ Ends Char.isDigit rest) := by
  rw [pair?, Field.number?_eq_some_iff]
  constructor
  · rintro ⟨ds, htrim, hvalue, hds, hlow, hhigh, hstop⟩
    obtain ⟨blanks, hcs, hblanks, -⟩ := trimStart_eq_iff.mp htrim
    refine ⟨⟨⟨blanks, hblanks⟩, ⟨ds, hds, List.ne_nil_of_length_pos hlow⟩, hhigh⟩, ?_, hvalue, hstop⟩
    rw [hcs, LoosePair.chars, List.append_assoc]
  · rintro ⟨p, rfl, hvalue, hstop⟩
    refine ⟨p.run.chars, ?_, hvalue, p.run.isDigit, p.run.one_le_length, p.length_le, hstop⟩
    rw [LoosePair.chars, List.append_assoc]
    exact trimStart_blanks_append p.blanks (p.run.ends_isBlank rest)

/-- What is read as a year is written as one. -/
theorem exists_of_year? {year : Int} (hrest : Ends Char.isDigit rest)
    (h : year? cs = some (year, rest)) :
    ∃ y : LooseYear, cs = y.chars ++ rest ∧ y.value = year := by
  have hsigned : ∀ (negative : Bool) {x : List Char} {n : Nat},
      trimStart cs = (if negative then '-' else '+') :: x →
      Field.longNumber? 1 x = some (n, rest) →
      ∃ y : LooseYear, cs = y.chars ++ rest ∧ y.value = if negative then -(n : Int) else n := by
    intro negative x n htrim hread
    obtain ⟨blanks, rfl, hblanks, -⟩ := trimStart_eq_iff.mp htrim
    obtain ⟨run, rfl, rfl⟩ := (Field.longNumber?_eq_some_iff hrest).mp hread
    exact ⟨.signed ⟨blanks, hblanks⟩ negative run, by simp [LooseYear.chars], rfl⟩
  -- a minus, a plus, or a number without a sign
  unfold year? at h
  split at h
  · next htrim =>
    obtain ⟨⟨n, rest'⟩, hread, h⟩ := Option.map_eq_some_iff.mp h
    cases h
    exact hsigned true htrim hread
  · next htrim =>
    obtain ⟨⟨n, rest'⟩, hread, h⟩ := Option.map_eq_some_iff.mp h
    cases h
    exact hsigned false htrim hread
  · obtain ⟨⟨n, rest'⟩, hread, h⟩ := Option.map_eq_some_iff.mp h
    cases h
    obtain ⟨ds, htrim, rfl, hds, hlow, hhigh, -⟩ := Field.number?_eq_some_iff.mp hread
    obtain ⟨blanks, rfl, hblanks, -⟩ := trimStart_eq_iff.mp htrim
    exact ⟨.unsigned ⟨blanks, hblanks⟩ ⟨ds, hds, List.ne_nil_of_length_pos hlow⟩ hhigh,
      by simp [LooseYear.chars], rfl⟩

/-- A year that is written is read, up to where digits end. -/
theorem year?_chars_append (y : LooseYear) (hrest : Ends Char.isDigit rest) :
    year? (y.chars ++ rest) = some (y.value, rest) := by
  cases y with
  | unsigned blanks run hlength =>
    have hread : Field.number? 1 4 (run.chars ++ rest) = some (run.value, rest) :=
      Field.number?_eq_some_iff.mpr
        ⟨run.chars, rfl, rfl, run.isDigit, run.one_le_length, hlength, .inr hrest⟩
    have htrim := LooseYear.trimStart_unsigned_append blanks run hlength rest
    -- without a sign, a digit is what the reader finds first
    obtain ⟨c, others, hchars, hc⟩ := run.exists_cons
    rw [hchars, List.cons_append] at htrim hread
    rw [year?_of_isDigit htrim hc, hread]
    rfl
  | signed blanks negative run =>
    have hread : Field.longNumber? 1 (run.chars ++ rest) = some (run.value, rest) :=
      (Field.longNumber?_eq_some_iff hrest).mpr ⟨run, rfl, rfl⟩
    rw [year?, LooseYear.trimStart_signed_append]
    cases negative <;> simp only [if_true, if_false, Bool.false_eq_true, hread] <;> rfl

/-- **Which texts start with a day**, and where it stops. -/
theorem day?_eq_some_iff {d : Day} :
    day? cs = some (d, rest) ↔
      ∃ w : LooseDay, cs = w.chars ++ rest ∧ w.toDay = d ∧ (w.day.Full ∨ Ends Char.isDigit rest) := by
  constructor
  · intro h
    -- what was read, field by field and from the front
    obtain ⟨⟨year, cs₁⟩, hyear, h⟩ := Option.bind_eq_some_iff.mp h
    obtain ⟨cs₂, hdash, h⟩ := Option.bind_eq_some_iff.mp h
    obtain ⟨⟨month, cs₃⟩, hmonth, h⟩ := Option.bind_eq_some_iff.mp h
    obtain ⟨cs₄, hdash', h⟩ := Option.bind_eq_some_iff.mp h
    obtain ⟨⟨day, cs₅⟩, hday, h⟩ := Option.bind_eq_some_iff.mp h
    cases h
    obtain rfl := Field.char?_eq_some_iff.mp hdash
    obtain rfl := Field.char?_eq_some_iff.mp hdash'
    obtain ⟨y, rfl, rfl⟩ := exists_of_year? ends_dash hyear
    obtain ⟨m, rfl, rfl, -⟩ := pair?_eq_some_iff.mp hmonth
    obtain ⟨d, rfl, rfl, hstop⟩ := pair?_eq_some_iff.mp hday
    exact ⟨⟨y, m, d⟩, by simp [LooseDay.chars], rfl, hstop⟩
  · rintro ⟨⟨y, m, d⟩, rfl, rfl, hstop⟩
    have htext : (LooseDay.mk y m d).chars ++ rest =
        y.chars ++ '-' :: (m.chars ++ '-' :: (d.chars ++ rest)) := by
      simp [LooseDay.chars]
    rw [htext, day?]
    -- each field is read up to the dash behind it, the last up to where it stops
    refine bind_eq_of_eq_some (year?_chars_append y ends_dash) ?_
    refine bind_eq_of_eq_some rfl ?_
    refine bind_eq_of_eq_some (pair?_eq_some_iff.mpr ⟨m, rfl, rfl, .inr ends_dash⟩) ?_
    refine bind_eq_of_eq_some rfl ?_
    exact bind_eq_of_eq_some (pair?_eq_some_iff.mpr ⟨d, rfl, rfl, hstop⟩) rfl

/-- **Which texts are a time of day**, from their beginning to their end. -/
theorem clock?_eq_some_nil_iff {c : Clock} :
    clock? cs = some (c, []) ↔ ∃ w : LooseClock, cs = w.chars ∧ w.toClock = c := by
  constructor
  · intro h
    obtain ⟨⟨hour, cs₁⟩, hhour, h⟩ := Option.bind_eq_some_iff.mp h
    obtain ⟨cs₂, hcolon, h⟩ := Option.bind_eq_some_iff.mp h
    obtain ⟨⟨minute, cs₃⟩, hminute, h⟩ := Option.bind_eq_some_iff.mp h
    obtain ⟨cs₄, hcolon', h⟩ := Option.bind_eq_some_iff.mp h
    obtain ⟨⟨second, cs₅⟩, hsecond, h⟩ := Option.bind_eq_some_iff.mp h
    obtain ⟨⟨nanos, cs₆⟩, hfraction, h⟩ := Option.bind_eq_some_iff.mp h
    cases h
    obtain rfl := Field.char?_eq_some_iff.mp hcolon
    obtain rfl := Field.char?_eq_some_iff.mp hcolon'
    obtain ⟨hr, rfl, rfl, -⟩ := pair?_eq_some_iff.mp hhour
    obtain ⟨mn, rfl, rfl, -⟩ := pair?_eq_some_iff.mp hminute
    obtain ⟨sc, rfl, rfl, -⟩ := pair?_eq_some_iff.mp hsecond
    -- the seconds are followed by the end of the text or by a fraction
    rcases (Field.fraction?_eq_some_iff ends_nil (by simp)).mp hfraction with
      ⟨rfl, rfl⟩ | ⟨f, rfl, rfl⟩
    · exact ⟨⟨hr, mn, sc, none⟩, by simp [LooseClock.chars, LooseClock.fractionChars], rfl⟩
    · exact ⟨⟨hr, mn, sc, some f⟩, by simp [LooseClock.chars, LooseClock.fractionChars], rfl⟩
  · rintro ⟨w, rfl, rfl⟩
    rw [LooseClock.chars, clock?]
    refine bind_eq_of_eq_some (pair?_eq_some_iff.mpr ⟨w.hour, rfl, rfl, .inr ends_colon⟩) ?_
    refine bind_eq_of_eq_some rfl ?_
    refine bind_eq_of_eq_some (pair?_eq_some_iff.mpr ⟨w.minute, rfl, rfl, .inr ends_colon⟩) ?_
    refine bind_eq_of_eq_some rfl ?_
    refine bind_eq_of_eq_some (pair?_eq_some_iff.mpr ⟨w.second, rfl, rfl, .inr w.ends_fractionChars⟩) ?_
    exact bind_eq_of_eq_some w.fraction?_fractionChars rfl

/-- White space in front of a time of day goes with the white space in front of its hour. -/
theorem clock?_trimStart (cs : List Char) : clock? (trimStart cs) = clock? cs := by
  have htwice : trimStart (trimStart cs) = trimStart cs :=
    trimStart_eq_iff.mpr ⟨[], rfl, List.forall_mem_nil _, ends_dropWhile _ _⟩
  rw [clock?, clock?, pair?, pair?, htwice]

/-! ## Readers of whole texts -/

/-- **A day alone**, up to the end of the text. -/
theorem readDay?_eq_some_iff {i : Instant} :
    readDay? cs = some i ↔
      ∃ d : LooseDay, cs = d.chars ∧ Instant.ofCivil? d.toDay .midnight 0 = some i := by
  constructor
  · intro h
    obtain ⟨⟨d, rest⟩, hday, h⟩ := Option.bind_eq_some_iff.mp h
    obtain ⟨w, rfl, rfl, -⟩ := day?_eq_some_iff.mp hday
    obtain ⟨hrest, hinstant⟩ := Option.ite_none_right_eq_some.mp h
    rw [List.isEmpty_iff.mp hrest, List.append_nil]
    exact ⟨w, rfl, hinstant⟩
  · rintro ⟨w, rfl, hinstant⟩
    exact bind_eq_of_eq_some
      (day?_eq_some_iff.mpr ⟨w, (List.append_nil _).symm, rfl, .inr ends_nil⟩)
      ((if_pos rfl).trans hinstant)

/-- A day, a mark and a time of day up to the end of the text. -/
theorem readDayTime?_eq_some_iff {mark : List Char → Option (List Char)} {i : Instant} :
    readDayTime? mark cs = some i ↔
      ∃ d rest, day? cs = some (d, rest) ∧ ∃ rest', mark rest = some rest' ∧
        ∃ c, clock? rest' = some (c, []) ∧ Instant.ofCivil? d c 0 = some i := by
  constructor
  · intro h
    obtain ⟨⟨d, rest⟩, hday, h⟩ := Option.bind_eq_some_iff.mp h
    obtain ⟨rest', hmark, h⟩ := Option.bind_eq_some_iff.mp h
    obtain ⟨⟨c, last⟩, hclock, h⟩ := Option.bind_eq_some_iff.mp h
    obtain ⟨hlast, hinstant⟩ := Option.ite_none_right_eq_some.mp h
    obtain rfl := List.isEmpty_iff.mp hlast
    exact ⟨d, rest, hday, rest', hmark, c, hclock, hinstant⟩
  · rintro ⟨d, rest, hday, rest', hmark, c, hclock, hinstant⟩
    refine bind_eq_of_eq_some hday ?_
    refine bind_eq_of_eq_some hmark ?_
    exact bind_eq_of_eq_some hclock ((if_pos rfl).trans hinstant)

/-- **A day and a time of day with a letter between them.** -/
theorem readMarked?_eq_some_iff {i : Instant} :
    readMarked? cs = some i ↔
      ∃ (d : LooseDay) (c : LooseClock), cs = d.chars ++ 'T' :: c.chars ∧
        Instant.ofCivil? d.toDay c.toClock 0 = some i := by
  rw [readMarked?, readDayTime?_eq_some_iff]
  constructor
  · rintro ⟨d, rest, hday, rest', hmark, c, hclock, hinstant⟩
    obtain rfl := Field.char?_eq_some_iff.mp hmark
    obtain ⟨w, rfl, rfl, -⟩ := day?_eq_some_iff.mp hday
    obtain ⟨w', rfl, rfl⟩ := clock?_eq_some_nil_iff.mp hclock
    exact ⟨w, w', rfl, hinstant⟩
  · rintro ⟨w, w', rfl, hinstant⟩
    exact ⟨_, _, day?_eq_some_iff.mpr ⟨w, rfl, rfl, .inr (ends_cons.mpr rfl)⟩, _, rfl, _,
      clock?_eq_some_nil_iff.mpr ⟨w', rfl, rfl⟩, hinstant⟩

/-- **A day and a time of day without one**: where they meet the digits have to be told apart. -/
theorem readSpaced?_eq_some_iff {i : Instant} :
    readSpaced? cs = some i ↔
      ∃ (d : LooseDay) (c : LooseClock), cs = d.chars ++ c.chars ∧
        (d.day.Full ∨ c.hour.blanks.chars ≠ []) ∧
        Instant.ofCivil? d.toDay c.toClock 0 = some i := by
  rw [readSpaced?, readDayTime?_eq_some_iff]
  constructor
  · rintro ⟨d, rest, hday, rest', hmark, c, hclock, hinstant⟩
    cases hmark
    -- the white space that is trimmed belongs to the hour
    rw [clock?_trimStart] at hclock
    obtain ⟨w, rfl, rfl, hstop⟩ := day?_eq_some_iff.mp hday
    obtain ⟨w', rfl, rfl⟩ := clock?_eq_some_nil_iff.mp hclock
    exact ⟨w, w', rfl, hstop.imp_right w'.ends_isDigit_iff.mp, hinstant⟩
  · rintro ⟨w, w', rfl, hstop, hinstant⟩
    refine ⟨_, _, day?_eq_some_iff.mpr ⟨w, rfl, rfl, hstop.imp_right w'.ends_isDigit_iff.mpr⟩, _,
      rfl, w'.toClock, ?_, hinstant⟩
    rw [clock?_trimStart]
    exact clock?_eq_some_nil_iff.mpr ⟨w', rfl, rfl⟩

end PlainDate

/-- **The three readers take the loosely written dates**, and read what is written. -/
theorem LooseDate.exists_iff {i : Instant} :
    (PlainDate.readDay? cs = some i ∨ PlainDate.readMarked? cs = some i ∨
      PlainDate.readSpaced? cs = some i) ↔
    ∃ w : LooseDate, cs = w.chars ∧ w.Exists ∧ w.instant = i := by
  have hcivil : ∀ {w : LooseDate},
      Instant.ofCivil? w.civilDay w.civilClock 0 = some i ↔ w.Exists ∧ w.instant = i := by
    intro w
    rw [Instant.ofCivil?_zero, Option.ite_none_right_eq_some, Option.some_inj]
    rfl
  rw [PlainDate.readDay?_eq_some_iff, PlainDate.readMarked?_eq_some_iff,
    PlainDate.readSpaced?_eq_some_iff]
  constructor
  · rintro (⟨d, hcs, hi⟩ | ⟨d, c, hcs, hi⟩ | ⟨d, c, hcs, hapart, hi⟩)
    · exact ⟨.day d, hcs, hcivil.mp hi⟩
    · exact ⟨.marked d c, hcs, hcivil.mp hi⟩
    · exact ⟨.spaced d c hapart, hcs, hcivil.mp hi⟩
  · rintro ⟨w, hcs, hi⟩
    cases w with
    | day d => exact .inl ⟨d, hcs, hcivil.mpr hi⟩
    | marked d c => exact .inr (.inl ⟨d, c, hcs, hcivil.mpr hi⟩)
    | spaced d c hapart => exact .inr (.inr ⟨d, c, hcs, hapart, hcivil.mpr hi⟩)

end

end RecordGuard
