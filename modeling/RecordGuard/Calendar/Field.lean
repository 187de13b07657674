import RecordGuard.Text.Blank

/-!
# Fields of written dates

The small pieces from which every written form of a date is read. A reader takes the characters
that are left and answers with what it read and the characters after it, or with `none`.
-/

namespace RecordGuard.Field

/-- The value of a run of decimal digits. -/
def value (digits : List Char) : Nat :=
  digits.foldl (fun n c => n * 10 + (c.toNat - '0'.toNat)) 0

/-- As many decimal digits as there are, at least `low` of them and not more than `high`. -/
def digits? (low high : Nat) (cs : List Char) : Option (List Char × List Char) :=
  let ds := (cs.take high).takeWhile Char.isDigit
  if ds.length < low then none else some (ds, cs.drop ds.length)

/-- A number of at least `low` and not more than `high` digits. -/
def number? (low high : Nat) (cs : List Char) : Option (Nat × List Char) :=
  (digits? low high cs).map fun (ds, rest) => (value ds, rest)

/-- A number of at least `low` digits, however many there are. -/
def longNumber? (low : Nat) (cs : List Char) : Option (Nat × List Char) :=
  number? low cs.length cs

def char? (c : Char) : List Char → Option (List Char)
  | [] => none
  | d :: rest => if d = c then some rest else none

/-- White space, at least one character of it and all there is. -/
def blank? : List Char → Option (List Char)
  | [] => none
  | c :: rest => if isBlank c then some (trimStart rest) else none

/-- A fraction of a second in nanoseconds: one digit or more, of which the first nine count. -/
def nanos? (cs : List Char) : Option (Nat × List Char) := do
  let (ds, rest) ← digits? 1 9 cs
  return (value ds * Nat.pow 10 (9 - ds.length), rest.dropWhile Char.isDigit)

/-- A point and a fraction of a second, or nothing. -/
def fraction? : List Char → Option (Nat × List Char)
  | '.' :: rest => nanos? rest
  | cs => some (0, cs)

/-- An offset of hours and minutes of two digits each, the sign already read. `separator` reads what
stands between them. -/
def hoursMinutes? (separator : List Char → Option (List Char)) (cs : List Char) :
    Option (Nat × List Char) := do
  let (hours, cs) ← number? 2 2 cs
  let cs ← separator cs
  let (minutes, cs) ← number? 2 2 cs
  if hours ≤ 23 ∧ minutes ≤ 59 then return (hours * 3600 + minutes * 60, cs) else none

/-- The position in `names` of the three-letter name that the text starts with, in either case. -/
def name? (names : List (List Char)) (cs : List Char) : Option (Nat × List Char) :=
  let name := (cs.take 3).map Char.toLower
  (names.findIdx? (· = name)).map fun i => (i, cs.drop 3)

end RecordGuard.Field
