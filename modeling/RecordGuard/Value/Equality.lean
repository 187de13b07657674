import RecordGuard.Value.Basic

/-!
# Equality of values

Values of different kinds are never equal. Numbers compare numerically, so a NaN makes every value
that contains it unequal to itself; dates compare as instants, the date without one being equal
only to itself; arrays compare element by element. Objects are equal when they have equally many
fields and every field of the left one is found, with an equal value, in the right one: the order
of keys does not count.
-/

namespace RecordGuard

namespace Value

mutual

def equal : Value → Value → Bool
  | undefined, undefined => true
  | null, null => true
  | bool a, bool b => a == b
  | number a, number b => a.equal b
  | string a, string b => a == b
  | date a, date b => a == b
  | array xs, array ys => equalItems xs ys
  | object fs, object gs => fs.length == gs.length && foundIn gs fs
  | _, _ => false

def equalItems : List Value → List Value → Bool
  | [], [] => true
  | x :: xs, y :: ys => equal x y && equalItems xs ys
  | _, _ => false

/-- Whether each of the fields is found among `others` with an equal value. -/
def foundIn (others : Fields Value) : List (String × Value) → Bool
  | [] => true
  | (key, v) :: rest =>
    (match others.get? key with
      | some w => equal v w
      | none => false) && foundIn others rest

end

end Value

end RecordGuard
