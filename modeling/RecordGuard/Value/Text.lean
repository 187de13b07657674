import RecordGuard.Calendar.Timestamp
import RecordGuard.Number.Shortest
import RecordGuard.Text.Quoted
import RecordGuard.Value.Basic

/-!
# Text of a value

How a value is shown in a diagnostic. Strings and keys are quoted, everything else is bare, so the
text of a value determines the value: its kind, its nesting, the order of its keys and the bits of
its numbers, NaNs apart.
-/

namespace RecordGuard

namespace Value

mutual

def chars : Value → List Char
  | undefined => "undefined".toList
  | null => "null".toList
  | bool true => "true".toList
  | bool false => "false".toList
  | number n => n.chars
  | string s => quoteChars s.toList
  | date (some i) => "Date(".toList ++ Timestamp.chars i ++ [')']
  | date none => "Date(Invalid Date)".toList
  | array [] => ['[', ']']
  | array (v :: rest) => '[' :: chars v ++ itemsChars rest
  | object [] => ['\x7b', '\x7d']
  | object ((key, v) :: rest) =>
    '\x7b' :: quoteChars key.toList ++ ':' :: ' ' :: chars v ++ fieldsChars rest

/-- The elements after the first, each behind a comma, and the closing bracket. -/
def itemsChars : List Value → List Char
  | [] => [']']
  | v :: rest => ',' :: ' ' :: chars v ++ itemsChars rest

/-- The fields after the first, each behind a comma, and the closing brace. -/
def fieldsChars : List (String × Value) → List Char
  | [] => ['\x7d']
  | (key, v) :: rest =>
    ',' :: ' ' :: quoteChars key.toList ++ ':' :: ' ' :: chars v ++ fieldsChars rest

end

def text (v : Value) : String := String.ofList v.chars

end Value

end RecordGuard
