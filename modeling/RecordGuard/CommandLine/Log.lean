import RecordGuard.Diagnostics.Event

/-!
# The log on the command line

An event is written on a line: its level, its message, and its details as `name=value`, texts
between quotes. Control characters that a terminal would obey are written out in the message.

How much of the log shows depends on how often more of it was asked for: warnings and errors without
the channel of diagnostics, since their texts are in the report already; everything from `info` on;
or everything from `debug` on.
-/

namespace RecordGuard

/-- A character of a message, written out if a terminal would obey it. -/
def messageChar (c : Char) : List Char :=
  match c.toNat with
  | 0x07 => "\\x07".toList
  | 0x08 => "\\x08".toList
  | 0x0c => "\\x0c".toList
  | 0x1b => "\\x1b".toList
  | 0x7f => "\\x7f".toList
  | n => if 0x80 ≤ n ∧ n ≤ 0x9f then unicodeEscape c else [c]

def EventField.chars (f : EventField) : List Char :=
  ' ' :: f.name.toList ++ '=' :: if f.quoted then quoteChars f.text.toList else f.text.toList

def Event.line (e : Event) : String :=
  String.ofList (e.level.name.toList ++ ' ' :: e.message.toList.flatMap messageChar ++
    e.fields.flatMap EventField.chars)

def Event.shows (verbosity : Nat) (e : Event) : Bool :=
  match verbosity with
  | 0 => decide (e.level.detail ≤ Level.warn.detail) && !e.isDiagnostic
  | 1 => decide (e.level.detail ≤ Level.info.detail)
  | _ => decide (e.level.detail ≤ Level.debug.detail)

end RecordGuard
