import RecordGuard.Value.Equality

/-!
# Absent values

Whether a value is one of those that the caller takes for absent. Any value may be nominated;
whoever nominates none means `null` and `undefined`.
-/

namespace RecordGuard

/-- The values that are absent unless others are nominated. -/
def defaultSentinels : List Value := [.null, .undefined]

/-- The sentinels that a list of nominated values stands for. -/
def effectiveSentinels (nominated : List Value) : List Value :=
  if nominated.isEmpty then defaultSentinels else nominated

/-- Whether a value equals one of the sentinels. -/
def Value.isAbsent (v : Value) (nominated : List Value) : Bool :=
  (effectiveSentinels nominated).any fun sentinel => sentinel.equal v

end RecordGuard
