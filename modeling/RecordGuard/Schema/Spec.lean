import RecordGuard.Json.Basic

/-!
# Schema files

What a schema file says: a record shape in which the root and every property name a guard of the
library. The types here are the content of a file after reading; whether the names it uses mean
anything is decided later, when guards are made of it.
-/

namespace RecordGuard

inductive PropertySpec where
  | bare (kind : String)
  /-- A kind name with options: whether absent values pass, how the elements of an array are
  validated, and the declared keys and values of an enumeration. -/
  | detailed (kind : String) (nullable : Bool) (items : Option PropertySpec)
      (values : Option (Fields Json))
deriving Inhabited

inductive SuppressSpec where
  /-- All of them, or none. -/
  | all (suppressed : Bool)
  /-- Those about these keys; no keys mean all of them. -/
  | keys (keys : List String)
deriving DecidableEq

structure SchemaFile where
  name : String
  root : Option PropertySpec
  suppressMissing : Option SuppressSpec
  properties : List (String × PropertySpec)

end RecordGuard
