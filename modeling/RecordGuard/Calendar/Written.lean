import RecordGuard.Calendar.MailDate
import RecordGuard.Calendar.PlainDate
import RecordGuard.Calendar.Timestamp

/-!
# Written instants

The five written forms in which a text may name an instant, tried one after the other on the text
without the white space around it.
-/

namespace RecordGuard

/-- The accepted forms: timestamps, mail dates, calendar days, and days with a time of day. -/
def writtenForms : List (List Char → Option Instant) :=
  [Timestamp.read?, MailDate.read?, PlainDate.readDay?, PlainDate.readMarked?,
    PlainDate.readSpaced?]

/-- The instant that a text names in one of the accepted forms. -/
def Instant.ofText? (s : String) : Option Instant :=
  writtenForms.findSome? fun read => read (trim s.toList)

def Instant.timestamp (i : Instant) : String := String.ofList (Timestamp.chars i)

end RecordGuard
