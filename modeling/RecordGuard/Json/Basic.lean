import RecordGuard.Number.Rounding
import RecordGuard.Value.Basic

/-!
# Documents

The tree that a document is read into, whichever text format it was written in. Numbers keep the
difference between an integer of 64 bits and a floating-point number, since error texts show it;
as a guard's value both are plain numbers.
-/

namespace RecordGuard

inductive JsonNumber where
  /-- An integer that fits into 64 bits, signed or unsigned. -/
  | integer (z : Int)
  /-- A finite floating-point number. -/
  | float (n : Number)
deriving DecidableEq

def JsonNumber.toNumber : JsonNumber → Number
  | integer z => Number.ofInt z
  | float n => n

inductive Json where
  | null
  | bool (b : Bool)
  | number (n : JsonNumber)
  | string (s : String)
  | array (items : List Json)
  /-- A mapping, its fields in document order. -/
  | object (fields : List (String × Json))
deriving Inhabited

namespace Value

mutual

/-- The value that a document denotes: the same tree. -/
def ofJson : Json → Value
  | .null => null
  | .bool b => bool b
  | .number n => number n.toNumber
  | .string s => string s
  | .array items => array (ofJsonItems items)
  | .object fields => object (ofJsonFields fields)

def ofJsonItems : List Json → List Value
  | [] => []
  | j :: rest => ofJson j :: ofJsonItems rest

def ofJsonFields : List (String × Json) → Fields Value
  | [] => []
  | (key, j) :: rest => (key, ofJson j) :: ofJsonFields rest

end

end Value

end RecordGuard
