import SigningKeys.Record.Issue
import SigningKeys.Rotation.Strategy
import SigningKeys.Store

/-!
# Rotating keys

A rotation lists the store and, unless the active key is fresh, writes a retired copy of it and then
a new active key. Every call to the store may fail, which ends the rotation. `Rotator.step` performs
one call, so that the calls of several rotations can alternate; `Rotator.rotate` is one rotation
without interruption, and `run_eq_rotate` says that three steps perform it.
-/

namespace SigningKeys

/-- What rotates keys: where new keys come from and how long they sign. -/
structure Rotator where
  registry : Registry
  strategy : Strategy

/-- What the surroundings contribute to a rotation: the time at which it looks at the store, and
what a new record is made from. -/
structure Conditions where
  now : Instant
  draw : Draw

/-- A new record, and the record that it takes the place of. -/
structure Plan where
  current : Option Record
  fresh : Record

/-- Where a rotation stands: the call that it makes next, or its result. -/
inductive Stage where
  | listing
  | retiring (current fresh : Record)
  | publishing (fresh : Record)
  | finished (result : Except Error (Option Record))

/-- The errors of the calls that fail among those that a rotation makes: listing the store, and the
writes in order. -/
structure Faults where
  listing : Option Error
  firstWrite : Option Error
  secondWrite : Option Error

/-- A write that was attempted. -/
structure Write where
  record : Record
  succeeded : Bool
  deriving DecidableEq

/-- What became of a rotation: the store after it, the writes that it attempted, and its result,
which is the new record or none if the active key stays. -/
structure Transcript where
  store : Store
  writes : List Write
  result : Except Error (Option Record)

/-- Where a rotation goes on that has made its plan. -/
def Plan.stage (plan : Plan) : Stage :=
  match plan.current with
  | some current => .retiring current plan.fresh
  | none => .publishing plan.fresh

namespace Rotator

/-- The plan for a store that holds the given records; there is none if the active key stays. -/
def plan (rotator : Rotator) (conditions : Conditions) (records : List Record) :
    Except Error (Option Plan) := do
  match ← rotator.strategy.decide conditions.now records with
  | .keep => pure none
  | .replace current =>
      let fresh ← rotator.registry.issue conditions.draw
      pure (some ⟨current, fresh⟩)

/-- Where a rotation goes on that has seen the given records. -/
def stageAfterListing (rotator : Rotator) (conditions : Conditions) (records : List Record) :
    Stage :=
  match rotator.plan conditions records with
  | .error error => .finished (.error error)
  | .ok none => .finished (.ok none)
  | .ok (some plan) => plan.stage

/-- Performs the next call of a rotation, which fails with the given error if there is one. -/
def step (rotator : Rotator) (conditions : Conditions) (fault : Option Error) (store : Store) :
    Stage → Store × Stage
  | .finished result => (store, .finished result)
  | stage =>
      match fault, stage with
      | some error, _ => (store, .finished (.error error))
      | none, .listing => (store, rotator.stageAfterListing conditions store.records)
      | none, .retiring current fresh => (store.put current.retired, .publishing fresh)
      | none, .publishing fresh => (store.put fresh, .finished (.ok (some fresh)))
      | none, .finished result => (store, .finished result)

/-- Writes a new record as the last call of a rotation. -/
def publish (fault : Option Error) (store : Store) (fresh : Record) : Transcript :=
  match fault with
  | some error => ⟨store, [⟨fresh, false⟩], .error error⟩
  | none => ⟨store.put fresh, [⟨fresh, true⟩], .ok (some fresh)⟩

/-- Writes what a plan says. -/
def perform (faults : Faults) (store : Store) (plan : Plan) : Transcript :=
  match plan.current with
  | none => publish faults.firstWrite store plan.fresh
  | some current =>
      match faults.firstWrite with
      | some error => ⟨store, [⟨current.retired, false⟩], .error error⟩
      | none =>
          let rest := publish faults.secondWrite (store.put current.retired) plan.fresh
          { rest with writes := ⟨current.retired, true⟩ :: rest.writes }

/-- One rotation without interruption. -/
def rotate (rotator : Rotator) (conditions : Conditions) (faults : Faults) (store : Store) :
    Transcript :=
  match faults.listing with
  | some error => ⟨store, [], .error error⟩
  | none =>
      match rotator.plan conditions store.records with
      | .error error => ⟨store, [], .error error⟩
      | .ok none => ⟨store, [], .ok none⟩
      | .ok (some plan) => perform faults store plan

/-- Performs one call for each fault of a list. -/
def run (rotator : Rotator) (conditions : Conditions) :
    List (Option Error) → Store × Stage → Store × Stage
  | [], state => state
  | fault :: faults, (store, stage) =>
      rotator.run conditions faults (rotator.step conditions fault store stage)

/-- Three steps perform a rotation. -/
theorem run_eq_rotate (rotator : Rotator) (conditions : Conditions) (faults : Faults)
    (store : Store) :
    rotator.run conditions [faults.listing, faults.firstWrite, faults.secondWrite]
        (store, .listing) =
      ((rotator.rotate conditions faults store).store,
        .finished (rotator.rotate conditions faults store).result) := by
  obtain ⟨listing, firstWrite, secondWrite⟩ := faults
  cases listing with
  | some error => rfl
  | none =>
      simp only [run, step, stageAfterListing, rotate]
      cases rotator.plan conditions store.records with
      | error error => rfl
      | ok plan =>
          cases plan with
          | none => rfl
          | some plan =>
              obtain ⟨current, fresh⟩ := plan
              cases current <;> cases firstWrite <;> cases secondWrite <;> rfl

end Rotator

end SigningKeys
