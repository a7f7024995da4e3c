import SigningKeys.Error
import SigningKeys.Record

/-!
# Rotation periods

How long an active key signs. `Strategy.decide` says, from the records of a store and the time,
whether the active key stays or which key makes room for a new one.
-/

namespace SigningKeys

/-- A rotation period in seconds, from one second to `maxRotationPeriod`. -/
structure Strategy where
  seconds : Int
  seconds_pos : 1 ≤ seconds
  seconds_le : seconds ≤ maxRotationPeriod
  deriving DecidableEq

/-- What to do about the active key. -/
inductive Decision where
  /-- There is an active key that is fresh enough. -/
  | keep
  /-- A new key takes the place of the given one, or of none. -/
  | replace (current : Option Record)
  deriving DecidableEq

namespace Strategy

/-- The strategy with the given period. -/
def ofSeconds (seconds : Int) : Except Error Strategy :=
  if range : 1 ≤ seconds ∧ seconds ≤ maxRotationPeriod then .ok ⟨seconds, range.1, range.2⟩
  else .error (.configuration (.rotationPeriod seconds))

/-- When a record stops being fresh enough to sign with. -/
def nextRotation (strategy : Strategy) (record : Record) : Except Error Instant :=
  match record.createdAt.shift? strategy.seconds with
  | some next => .ok next
  | none => .error (.configuration (.rotationTime record.keyId))

/-- What to do about the only active record of a list. -/
def decide (strategy : Strategy) (now : Instant) (records : List Record) : Except Error Decision :=
  match records.filter Record.isActive with
  | [] => .ok (.replace none)
  | [current] => do
      let next ← strategy.nextRotation current
      pure (if now < next then .keep else .replace (some current))
  | _ => .error (.general .severalActiveKeys)

end Strategy

end SigningKeys
