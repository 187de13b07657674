import RecordGuard.Calendar.Day

/-!
# Instants

A point in time: whole seconds since the beginning of 1970 in universal time, and nanoseconds after
it. Nanoseconds from `10 ^ 9` on mark a leap second: the instant lies in the second that follows the
second named, which then is the last of its minute.

`Instant.ofCivil?` reads a civil day and time of day at an offset from universal time;
`Instant.day` and `Instant.clock` take an instant apart again.
-/

namespace RecordGuard

structure Instant where
  seconds : Int
  nanos : Nat
deriving DecidableEq, Inhabited

/-- A time of day. The second 60 is a leap second. -/
structure Clock where
  hour : Nat
  minute : Nat
  second : Nat
  nanos : Nat
deriving DecidableEq

def nanosPerSecond : Nat := 1000000000

def Clock.Exists (c : Clock) : Prop :=
  c.hour ≤ 23 ∧ c.minute ≤ 59 ∧ c.second ≤ 60 ∧ c.nanos < nanosPerSecond

instance (c : Clock) : Decidable c.Exists := by unfold Clock.Exists; infer_instance

def Clock.midnight : Clock := ⟨0, 0, 0, 0⟩

namespace Instant

/-- The day in universal time. -/
def day (i : Instant) : Day := Day.ofNumber (i.seconds / 86400)

/-- The time of day in universal time. -/
def clock (i : Instant) : Clock :=
  let s := (i.seconds % 86400).toNat
  ⟨s / 3600, s / 60 % 60, s % 60 + i.nanos / nanosPerSecond, i.nanos % nanosPerSecond⟩

/-- The instant of a civil day and time at `offset` seconds ahead of universal time, if both exist
and neither the civil day nor the day in universal time leaves the range of years. -/
def ofCivil? (d : Day) (c : Clock) (offset : Int) : Option Instant :=
  if d.Exists ∧ d.InRange ∧ c.Exists then
    let leap := c.second = 60
    let second := if leap then 59 else c.second
    let i : Instant :=
      ⟨d.number * 86400 + (c.hour * 3600 + c.minute * 60 + second : Nat) - offset,
        c.nanos + if leap then nanosPerSecond else 0⟩
    if i.day.InRange then some i else none
  else none

end Instant

end RecordGuard
