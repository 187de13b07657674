/-!
# Fields

Key–value pairs in the order in which the keys first came. Writing a key that is there replaces its
value where it stands; writing a new key appends it. Fields that come from `insert` alone therefore
never repeat a key.
-/

namespace RecordGuard

abbrev Fields (α : Type) := List (String × α)

namespace Fields

variable {α : Type}

def get? (fields : Fields α) (key : String) : Option α :=
  match fields with
  | [] => none
  | (k, v) :: rest => if k = key then some v else get? rest key

/-- The fields with `value` under `key`: in place if the key is there, else at the end. -/
def insert (fields : Fields α) (key : String) (value : α) : Fields α :=
  match fields with
  | [] => [(key, value)]
  | (k, v) :: rest => if k = key then (key, value) :: rest else (k, v) :: insert rest key value

/-- Inserts `value` under `key` and hands out the value that it takes the place of. -/
def exchange (fields : Fields α) (key : String) (value : α) : Option α × Fields α :=
  match fields with
  | [] => (none, [(key, value)])
  | (k, v) :: rest =>
    if k = key then (some v, (key, value) :: rest)
    else
      let (previous, others) := exchange rest key value
      (previous, (k, v) :: others)

def keys (fields : Fields α) : List String := fields.map (·.1)

def hasKey (fields : Fields α) (key : String) : Bool := (fields.get? key).isSome

/-- The pairs inserted one after the other: a repeated key keeps its first position and its last
value. -/
def ofPairs (pairs : List (String × α)) : Fields α :=
  pairs.foldl (fun fields (key, value) => fields.insert key value) []

def Distinct (fields : Fields α) : Prop := fields.keys.Nodup

/-- The elements of a list under the decimal texts of their positions. -/
def ofList (items : List α) : Fields α :=
  items.zipIdx.map fun (item, i) => (Nat.repr i, item)

end Fields

end RecordGuard
