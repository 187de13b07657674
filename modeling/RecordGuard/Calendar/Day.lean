/-!
# Calendar days

Days of the proleptic Gregorian calendar and their numbers: a day's number is how many days it lies
after 1 January 1970. Years count through zero into the negative, and a year is leap when four
divides it but a hundred does not, or four hundred does.
-/

namespace RecordGuard

def isLeapYear (year : Int) : Bool :=
  year % 4 == 0 && (year % 100 != 0 || year % 400 == 0)

def daysInMonth (year : Int) : Nat → Nat
  | 2 => if isLeapYear year then 29 else 28
  | 4 | 6 | 9 | 11 => 30
  | _ => 31

def daysBeforeMonth (year : Int) : Nat → Nat
  | 0 | 1 => 0
  | month + 2 => daysBeforeMonth year (month + 1) + daysInMonth year (month + 1)

/-- Days from 1 January of year one to 1 January of `year`. -/
def daysBeforeYear (year : Int) : Int :=
  let y := year - 1
  365 * y + y / 4 - y / 100 + y / 400

structure Day where
  year : Int
  month : Nat
  day : Nat
deriving DecidableEq

namespace Day

def Exists (d : Day) : Prop :=
  1 ≤ d.month ∧ d.month ≤ 12 ∧ 1 ≤ d.day ∧ d.day ≤ daysInMonth d.year d.month

instance (d : Day) : Decidable d.Exists := by unfold Exists; infer_instance

/-- The years that instants range over. -/
def InRange (d : Day) : Prop := -262143 ≤ d.year ∧ d.year ≤ 262142

instance (d : Day) : Decidable d.InRange := by unfold InRange; infer_instance

/-- Days after 1 January 1970. -/
def number (d : Day) : Int :=
  daysBeforeYear d.year + daysBeforeMonth d.year d.month + d.day - 719163

/-- The month that contains the day at `rest` days into the year, searched from `month` on, and
that day's place in it, counted from one. -/
def placeInYear (year : Int) (month rest : Nat) : Nat → Nat × Nat
  | 0 => (month, rest + 1)
  | fuel + 1 =>
    if rest < daysInMonth year month then (month, rest + 1)
    else placeInYear year (month + 1) (rest - daysInMonth year month) fuel

/-- The day with the given number: whole cycles of four hundred years first, then centuries, spans
of four years and years. The last day of a leap cycle and of a leap span belongs to the last
century or year, which is one day longer. -/
def ofNumber (n : Int) : Day :=
  let fromOne := n + 719162
  let cycle := fromOne / 146097
  let inCycle := (fromOne % 146097).toNat
  let century := min 3 (inCycle / 36524)
  let inCentury := inCycle - century * 36524
  let span := inCentury / 1461
  let inSpan := inCentury % 1461
  let yearOfSpan := min 3 (inSpan / 365)
  let year : Int := 400 * cycle + 100 * century + 4 * span + yearOfSpan + 1
  let (month, day) := placeInYear year 1 (inSpan - 365 * yearOfSpan) 11
  ⟨year, month, day⟩

/-- Day of the week, counted from Monday as zero. -/
def weekday (d : Day) : Nat := ((d.number + 3) % 7).toNat

end Day

end RecordGuard
