import RecordGuard.Calendar.Field
import RecordGuard.Calendar.Instant

/-!
# Dates without an offset

A calendar day, `2026-01-15`, read as its midnight, and a day with a time of day,
`2026-01-15T12:00:00.250` or with blanks for the `T`, both in universal time.

The fields are lenient: white space may stand in front of every number, months, days, hours,
minutes and seconds have one or two digits, and a year has up to four digits, or any number of them
after a sign. The marks between the fields have to be exact.
-/

namespace RecordGuard.PlainDate

/-- A year: up to four digits, or a sign and any number of digits. -/
def year? (cs : List Char) : Option (Int × List Char) :=
  match trimStart cs with
  | '-' :: rest => (Field.longNumber? 1 rest).map fun (n, rest) => (-(n : Int), rest)
  | '+' :: rest => (Field.longNumber? 1 rest).map fun (n, rest) => ((n : Int), rest)
  | cs => (Field.number? 1 4 cs).map fun (n, rest) => ((n : Int), rest)

/-- One or two digits, white space in front. -/
def pair? (cs : List Char) : Option (Nat × List Char) := Field.number? 1 2 (trimStart cs)

def day? (cs : List Char) : Option (Day × List Char) := do
  let (year, cs) ← year? cs
  let cs ← Field.char? '-' cs
  let (month, cs) ← pair? cs
  let cs ← Field.char? '-' cs
  let (day, cs) ← pair? cs
  return (⟨year, month, day⟩, cs)

def clock? (cs : List Char) : Option (Clock × List Char) := do
  let (hour, cs) ← pair? cs
  let cs ← Field.char? ':' cs
  let (minute, cs) ← pair? cs
  let cs ← Field.char? ':' cs
  let (second, cs) ← pair? cs
  let (nanos, cs) ← Field.fraction? cs
  return (⟨hour, minute, second, nanos⟩, cs)

def readDay? (cs : List Char) : Option Instant := do
  let (day, cs) ← day? cs
  if cs.isEmpty then Instant.ofCivil? day Clock.midnight 0 else none

/-- A day and a time of day that make up the whole text, `mark` reading what stands between. -/
def readDayTime? (mark : List Char → Option (List Char)) (cs : List Char) : Option Instant := do
  let (day, cs) ← day? cs
  let cs ← mark cs
  let (clock, cs) ← clock? cs
  if cs.isEmpty then Instant.ofCivil? day clock 0 else none

def readMarked? : List Char → Option Instant := readDayTime? (Field.char? 'T')

/-- With white space between day and time, or nothing. -/
def readSpaced? : List Char → Option Instant := readDayTime? fun cs => some (trimStart cs)

end RecordGuard.PlainDate
