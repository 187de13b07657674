import RecordGuard.Calendar.Field
import RecordGuard.Calendar.Instant

/-!
# Dates of mail headers

The form `Thu, 15 Jan 2026 12:00:00 +0000`. The weekday may be left out but has to be right when it
is there; the seconds may be left out; years of two or three digits are read as years of the last
or the present century; the zone may be one of the old names; and comments in parentheses may
follow it.
-/

namespace RecordGuard.MailDate

def monthNames : List (List Char) :=
  ["jan", "feb", "mar", "apr", "may", "jun", "jul", "aug", "sep", "oct", "nov", "dec"].map
    String.toList

def weekdayNames : List (List Char) :=
  ["mon", "tue", "wed", "thu", "fri", "sat", "sun"].map String.toList

/-- An optional weekday. One that is there is followed by a comma. -/
def weekday? (cs : List Char) : Option (Option Nat × List Char) :=
  match Field.name? weekdayNames cs with
  | some (day, rest) => (Field.char? ',' rest).map fun rest => (some day, rest)
  | none => some (none, cs)

/-- Two digits below fifty mean this century, two digits from fifty on and any three digits count
from 1900, and four digits or more are the year itself. -/
def year? (cs : List Char) : Option (Nat × List Char) := do
  let (ds, rest) ← Field.digits? 2 cs.length cs
  let n := Field.value ds
  match ds.length with
  | 2 => return (if n < 50 then n + 2000 else n + 1900, rest)
  | 3 => return (n + 1900, rest)
  | _ => return (n, rest)

/-- Optional seconds: white space, a colon, and two digits right behind it. -/
def seconds? (cs : List Char) : Option (Nat × List Char) :=
  match Field.char? ':' (trimStart cs) with
  | some rest => Field.number? 2 2 rest
  | none => some (0, cs)

/-- Hours behind universal time of the old zone names; single letters other than `j` say nothing
about the offset and count as zero. -/
def namedZone? (name : List Char) : Option Nat :=
  match String.ofList (name.map Char.toLower) with
  | "gmt" | "ut" | "z" => some 0
  | "edt" => some 4
  | "est" | "cdt" => some 5
  | "cst" | "mdt" => some 6
  | "mst" | "pdt" => some 7
  | "pst" => some 8
  | "j" => none
  | _ => if name.length = 1 then some 0 else none

/-- The zone in seconds ahead of universal time: a name, or a sign and four digits. -/
def zone? (cs : List Char) : Option (Int × List Char) :=
  let name := cs.takeWhile Char.isAlpha
  if name.isEmpty then
    match cs with
    | '+' :: rest => (Field.hoursMinutes? some rest).map fun (s, rest) => ((s : Int), rest)
    | '-' :: rest => (Field.hoursMinutes? some rest).map fun (s, rest) => (-(s : Int), rest)
    | _ => none
  else (namedZone? name).map fun hours => (-(hours * 3600 : Nat), cs.drop name.length)

/-- What follows the parenthesis that closes a comment, `depth` parentheses being open inside the
outermost one. A backslash takes the next character with it. -/
def closeComment? : Nat → List Char → Option (List Char)
  | _, [] => none
  | depth, '\\' :: _ :: rest => closeComment? depth rest
  | depth, '(' :: rest => closeComment? (depth + 1) rest
  | 0, ')' :: rest => some rest
  | depth + 1, ')' :: rest => closeComment? depth rest
  | depth, _ :: rest => closeComment? depth rest

/-- The text after one comment and the white space in front of it. -/
def comment? (cs : List Char) : Option (List Char) :=
  match trimStart cs with
  | '(' :: rest => closeComment? 0 rest
  | _ => none

/-- The text after the comments it starts with. Each takes at least one character, so as many
attempts as there are characters are enough. -/
def skipComments : Nat → List Char → List Char
  | 0, cs => cs
  | fuel + 1, cs =>
    match comment? cs with
    | some rest => skipComments fuel rest
    | none => cs

def read? (cs : List Char) : Option Instant := do
  let (weekday, cs) ← weekday? (trimStart cs)
  let (day, cs) ← Field.number? 1 2 (trimStart cs)
  let cs ← Field.blank? cs
  let (month, cs) ← Field.name? monthNames cs
  let cs ← Field.blank? cs
  let (year, cs) ← year? cs
  let cs ← Field.blank? cs
  let (hour, cs) ← Field.number? 2 2 cs
  let cs ← Field.char? ':' (trimStart cs)
  let (minute, cs) ← Field.number? 2 2 (trimStart cs)
  let (second, cs) ← seconds? cs
  let cs ← Field.blank? cs
  let (zone, cs) ← zone? cs
  let date : Day := ⟨year, month + 1, day⟩
  if (skipComments cs.length cs).isEmpty ∧ weekday.all (· = date.weekday) then
    Instant.ofCivil? date ⟨hour, minute, second, 0⟩ zone
  else none

end RecordGuard.MailDate
