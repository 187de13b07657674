import RecordGuard.Yaml.Node
import RecordGuard.Yaml.Scalar

/-!
# Reading YAML

A document's tree is its node with scalars read and aliases followed. Keys are scalars and are taken
by their texts; of the values given to one key the last counts, at the place of the first. Tags of
the document's own are errors unless they have gaps, other tags on collections mean nothing.

Following aliases can blow a document up, so there are limits: collections nest to a depth of at
most 128, aliases included, and aliases are followed at most a hundred times for every event of the
document, an event being a scalar, an alias, or the beginning or end of a collection.
-/

namespace RecordGuard.Yaml

namespace Node

mutual

/-- The anchored nodes inside a node with their numbers in front of those found `before` it, those
that begin later first. -/
def anchored (before : List (Nat × Node)) : Node → List (Nat × Node)
  | reference _ => before
  | scalar anchor tag text plain =>
    anchor.toList.map (fun n => (n, scalar anchor tag text plain)) ++ before
  | sequence anchor tag items =>
    anchoredItems (anchor.toList.map (fun n => (n, sequence anchor tag items)) ++ before) items
  | mapping anchor tag entries =>
    anchoredEntries (anchor.toList.map (fun n => (n, mapping anchor tag entries)) ++ before) entries

def anchoredItems (before : List (Nat × Node)) : List Node → List (Nat × Node)
  | [] => before
  | n :: rest => anchoredItems (anchored before n) rest

def anchoredEntries (before : List (Nat × Node)) : List (Node × Node) → List (Nat × Node)
  | [] => before
  | (k, v) :: rest => anchoredEntries (anchored (anchored before k) v) rest

end

mutual

def events : Node → Nat
  | reference _ => 1
  | scalar .. => 1
  | sequence _ _ items => 2 + eventsOfItems items
  | mapping _ _ entries => 2 + eventsOfEntries entries

def eventsOfItems : List Node → Nat
  | [] => 0
  | n :: rest => events n + eventsOfItems rest

def eventsOfEntries : List (Node × Node) → Nat
  | [] => 0
  | (k, v) :: rest => events k + events v + eventsOfEntries rest

end

/-- Reading that may fail and that counts down how often aliases may still be followed. -/
abbrev Reading := StateT Nat Option

/-- A node that is no alias: the node itself or the one that it stands for. -/
def follow (anchors : List (Nat × Node)) : Node → Reading Node
  | reference n => do
    match ← get with
    | 0 => failure
    | left + 1 =>
      set left
      match anchors.find? (·.1 = n) with
      | some (_, target) => return target
      | none => failure
  | n => return n

/-- The text of a node that is a key. -/
def keyText (anchors : List (Nat × Node)) (n : Node) : Reading String := do
  match ← follow anchors n with
  | scalar _ _ text _ => return String.ofList text
  | _ => failure

/-- Whether a collection may not have this tag. -/
def refusesTag (tag : Option TagText) : Bool :=
  tag.any fun tag => Scalar.isOwnTag tag && (Scalar.tagName? tag).isSome

/-- The tree of a node that is no alias. The nodes inside a collection are read by `inner`; without
it there may be no collection here. -/
def tree (anchors : List (Nat × Node)) (inner : Option (Node → Reading Json)) (n : Node) :
    Reading Json :=
  match n, inner with
  | scalar _ tag text plain, _ => liftM (Scalar.json? tag text plain)
  | sequence _ tag items, some read => do
    if refusesTag tag then failure
    return .array (← items.mapM read)
  | mapping _ tag entries, some read => do
    if refusesTag tag then failure
    return .object (Fields.ofPairs (← entries.mapM fun (k, v) => do
      return (← keyText anchors k, ← read v)))
  | _, _ => failure

/-- The tree of a node in which collections nest to the given depth at most. -/
def toJson (anchors : List (Nat × Node)) : Nat → Node → Reading Json
  | 0, n => do tree anchors none (← follow anchors n)
  | depth + 1, n => do tree anchors (some (toJson anchors depth)) (← follow anchors n)

def maxDepth : Nat := 128

/-- How often an alias may be followed for each event. -/
def aliasesPerEvent : Nat := 100

def json? (n : Node) : Option Json :=
  (toJson (n.anchored []) maxDepth n (n.events * aliasesPerEvent)).map (·.1)

end Node

def ofText? (cs : List Char) : Option Json := do
  let tokens ← Token.scan? cs
  let n ← Node.ofTokens? tokens
  n.json?

end RecordGuard.Yaml
