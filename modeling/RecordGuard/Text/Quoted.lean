import RecordGuard.Text.Hidden

/-!
# Quoted texts

How a string is shown inside other text: between double quotes, with an escape for the quote, the
backslash and every character that would not be seen. Nothing but an escape starts with a
backslash and no bare quote stands inside, so a quoted text ends where it seems to end.
-/

namespace RecordGuard

/-- A code point as `\u` and its lower-case hexadecimal digits in braces, without padding. -/
def unicodeEscape (c : Char) : List Char :=
  ['\\', 'u', '\x7b'] ++ Nat.toDigits 16 c.toNat ++ ['\x7d']

def quoteChar (c : Char) : List Char :=
  match c with
  | '"' => ['\\', '"']
  | '\\' => ['\\', '\\']
  | '\n' => ['\\', 'n']
  | '\r' => ['\\', 'r']
  | '\t' => ['\\', 't']
  | c => if c.toNat = 0 then ['\\', '0'] else if isHidden c then unicodeEscape c else [c]

/-- A text between double quotes, escaped. -/
def quoteChars (cs : List Char) : List Char :=
  '"' :: cs.flatMap quoteChar ++ ['"']

def quote (s : String) : String := String.ofList (quoteChars s.toList)

/-- A list of strings, each quoted, between brackets. -/
def quoteList (ss : List String) : String :=
  "[" ++ ", ".intercalate (ss.map quote) ++ "]"

end RecordGuard
