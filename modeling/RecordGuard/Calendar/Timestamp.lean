import RecordGuard.Calendar.Field
import RecordGuard.Calendar.Instant

/-!
# Timestamps

The internet form of an instant, `2026-01-15T12:00:00.5+05:30`: printer and reader.

The printer writes universal time. A year outside 0 to 9999 carries a sign, a leap second shows as
the second 60, and the fraction has three, six or nine digits, the fewest that are exact, or is left
out when it is zero. The reader takes any offset, lower-case letters, a space for the `T` and a
fraction of any length, of which nine digits count.
-/

namespace RecordGuard.Timestamp

/-- Decimal digits of `n`, filled up with zeros to `width`. -/
def padded (width n : Nat) : List Char :=
  let ds := Nat.toDigits 10 n
  List.replicate (width - ds.length) '0' ++ ds

def yearChars (year : Int) : List Char :=
  if 0 ≤ year ∧ year ≤ 9999 then padded 4 year.toNat
  else (if year < 0 then '-' else '+') :: padded 4 year.natAbs

def fractionChars (nanos : Nat) : List Char :=
  if nanos = 0 then []
  else if nanos % 1000000 = 0 then '.' :: padded 3 (nanos / 1000000)
  else if nanos % 1000 = 0 then '.' :: padded 6 (nanos / 1000)
  else '.' :: padded 9 nanos

def dayChars (d : Day) : List Char :=
  yearChars d.year ++ '-' :: padded 2 d.month ++ '-' :: padded 2 d.day

def clockChars (c : Clock) : List Char :=
  padded 2 c.hour ++ ':' :: padded 2 c.minute ++ ':' :: padded 2 c.second ++ fractionChars c.nanos

def chars (i : Instant) : List Char :=
  dayChars i.day ++ 'T' :: clockChars i.clock ++ ['+', '0', '0', ':', '0', '0']

/-! ## Reading -/

/-- The offset at the end of a timestamp, in seconds: `Z`, or a sign, hours, a colon and minutes.
The sign may be the mathematical minus. -/
def offset? : List Char → Option (Int × List Char)
  | 'Z' :: rest | 'z' :: rest => some (0, rest)
  | '+' :: rest =>
    (Field.hoursMinutes? (Field.char? ':') rest).map fun (s, rest) => ((s : Int), rest)
  | '-' :: rest | '\u2212' :: rest =>
    (Field.hoursMinutes? (Field.char? ':') rest).map fun (s, rest) => (-(s : Int), rest)
  | _ => none

def mark? : List Char → Option (List Char)
  | 'T' :: rest | 't' :: rest | ' ' :: rest => some rest
  | _ => none

def read? (cs : List Char) : Option Instant := do
  let (year, cs) ← Field.number? 4 4 cs
  let cs ← Field.char? '-' cs
  let (month, cs) ← Field.number? 2 2 cs
  let cs ← Field.char? '-' cs
  let (day, cs) ← Field.number? 2 2 cs
  let cs ← mark? cs
  let (hour, cs) ← Field.number? 2 2 cs
  let cs ← Field.char? ':' cs
  let (minute, cs) ← Field.number? 2 2 cs
  let cs ← Field.char? ':' cs
  let (second, cs) ← Field.number? 2 2 cs
  let (nanos, cs) ← Field.fraction? cs
  let (offset, cs) ← offset? cs
  if cs.isEmpty then
    Instant.ofCivil? ⟨year, month, day⟩ ⟨hour, minute, second, nanos⟩ offset
  else none

end RecordGuard.Timestamp
