import SigningKeys.Proofs.Record.Issue
import SigningKeys.Proofs.Store
import SigningKeys.Rotation.Rotator

/-!
# The calls of a rotation

What one call of a rotation can do, and what a rotation is sure of between its calls as long as
nothing else writes. Read `Rotator.Advance` first: it lists every effect that a call can have, and
`Rotator.step_advance` says that there is no other. `Rotation.states` gives the states that the
calls of one rotation lead through.
-/

namespace SigningKeys

/-- The new record that a rotation has yet to write. -/
def Stage.pending? : Stage → Option Record
  | .retiring _ fresh => some fresh
  | .publishing fresh => some fresh
  | _ => none

/-- The new record that a rotation has written and given back. -/
def Stage.stored? : Stage → Option Record
  | .finished (.ok result) => result
  | _ => none

/-- A rotation has given back a record exactly when it has ended with it. -/
theorem Stage.stored?_eq_some_iff {stage : Stage} {record : Record} :
    stage.stored? = some record ↔ stage = .finished (.ok (some record)) := by
  constructor
  · intro h
    match stage with
    | .finished (.ok result) => exact congrArg (fun result ↦ finished (.ok result)) h
    | .finished (.error _) | .listing | .retiring _ _ | .publishing _ => cases h
  · rintro rfl
    rfl

namespace Rotator

/-- What one call can do to the store and to the stage of the rotation that makes it. -/
inductive Advance (rotator : Rotator) (conditions : Conditions) (store : Store) :
    Stage → Store → Stage → Prop where
  /-- There was no call left to make. -/
  | ended (result) : Advance rotator conditions store (.finished result) store (.finished result)
  /-- The call failed, or the listing led to an error, before a record was given back. -/
  | failed (stage error) :
      stage.stored? = none →
      Advance rotator conditions store stage store (.finished (.error error))
  /-- The active key stays. -/
  | kept (current) :
      store.active = [current] →
      Advance rotator conditions store .listing store (.finished (.ok none))
  /-- There is no active key, and a first one was made. -/
  | opened (fresh) :
      store.active = [] →
      rotator.registry.issue conditions.draw = .ok fresh →
      Advance rotator conditions store .listing store (.publishing fresh)
  /-- The active key makes room for one that was made. -/
  | replaced (current fresh) :
      store.active = [current] →
      rotator.registry.issue conditions.draw = .ok fresh →
      Advance rotator conditions store .listing store (.retiring current fresh)
  /-- The active key was retired. -/
  | retired (current fresh) :
      Advance rotator conditions store (.retiring current fresh) (store.put current.retired)
        (.publishing fresh)
  /-- The new key was written. -/
  | published (fresh) :
      Advance rotator conditions store (.publishing fresh) (store.put fresh)
        (.finished (.ok (some fresh)))

variable {rotator : Rotator} {conditions : Conditions}

/-- What a listing leads to is what `Advance` says of a listing. -/
theorem stage_after_listing_advance (store : Store) :
    rotator.Advance conditions store .listing store
      (rotator.stageAfterListing conditions store.records) := by
  unfold stageAfterListing plan Strategy.decide
  -- The decision looks at the active records only: none, one, or too many.
  match hactive : store.records.filter Record.isActive with
  | [] =>
      cases hissue : rotator.registry.issue conditions.draw with
      | error error => exact .failed _ _ rfl
      | ok fresh => exact .opened fresh hactive hissue
  | [current] =>
      cases hnext : rotator.strategy.nextRotation current with
      | error error => simpa [hnext, bind, Except.bind] using Advance.failed .listing _ rfl
      | ok next =>
          by_cases hlt : conditions.now < next
          · simpa [hnext, bind, Except.bind, pure, Except.pure, hlt] using
              Advance.kept current hactive
          · cases hissue : rotator.registry.issue conditions.draw with
            | error error =>
                simpa [hnext, bind, Except.bind, pure, Except.pure, hlt, hissue] using
                  Advance.failed .listing _ rfl
            | ok fresh =>
                simpa [hnext, bind, Except.bind, pure, Except.pure, hlt, hissue, Plan.stage] using
                  Advance.replaced current fresh hactive hissue
  | _ :: _ :: _ => exact .failed _ _ rfl

/-- A call has one of the listed effects. -/
theorem step_advance (rotator : Rotator) (conditions : Conditions) (fault : Option Error)
    (store : Store) (stage : Stage) :
    rotator.Advance conditions store stage (rotator.step conditions fault store stage).1
      (rotator.step conditions fault store stage).2 := by
  cases stage with
  | finished result => exact .ended result
  | listing =>
      cases fault with
      | some error => exact .failed _ error rfl
      | none => exact stage_after_listing_advance store
  | retiring current fresh =>
      cases fault with
      | some error => exact .failed _ error rfl
      | none => exact .retired current fresh
  | publishing fresh =>
      cases fault with
      | some error => exact .failed _ error rfl
      | none => exact .published fresh

/-- A listing leads to a new record only if the registry issues it. -/
theorem issue_of_listing {fault : Option Error} {store : Store} {fresh : Record}
    (h : (rotator.step conditions fault store .listing).2.pending? = some fresh) :
    rotator.registry.issue conditions.draw = .ok fresh := by
  have hadvance := rotator.step_advance conditions fault store .listing
  generalize rotator.step conditions fault store .listing = next at hadvance h
  obtain ⟨after, stage⟩ := next
  cases hadvance with
  | failed | kept => simp [Stage.pending?] at h
  | opened other _ hissue | replaced _ other _ hissue =>
      cases h
      exact hissue

end Rotator

/-- What a rotation relies on between its calls: when it is about to retire a key, that is the only
active one; when it is about to write the new key, none is active; and the new id is not stored. -/
def Stage.Fits (store : Store) : Stage → Prop
  | .retiring current fresh => store.active = [current] ∧ fresh.keyId ∉ store.keyIds
  | .publishing fresh => store.active = [] ∧ fresh.keyId ∉ store.keyIds
  | _ => True

namespace Rotator.Advance

variable {rotator : Rotator} {conditions : Conditions} {store store' : Store}
  {stage stage' : Stage}

/-- Only a listing leads to a record that is yet to be written. -/
theorem pending_of_pending (h : rotator.Advance conditions store stage store' stage')
    (hstage : stage ≠ .listing) {fresh : Record} (hfresh : stage'.pending? = some fresh) :
    stage.pending? = some fresh := by
  cases h with
  | ended | failed | published => simp [Stage.pending?] at hfresh
  | kept | opened | replaced => exact absurd rfl hstage
  | retired current other => exact hfresh

/-- No call leads back to a listing. -/
theorem ne_listing (h : rotator.Advance conditions store stage store' stage') :
    stage' ≠ .listing := by
  cases h <;> simp

/-- Ids stay distinct. -/
theorem distinct (h : rotator.Advance conditions store stage store' stage')
    (distinct : store.keyIds.Nodup) : store'.keyIds.Nodup := by
  cases h with
  | retired | published => exact Store.distinct_put distinct _
  | ended | failed | kept | opened | replaced => exact distinct

/-- Only a listing that shows one active key leads to its retirement. -/
theorem of_retiring {current fresh : Record}
    (h : rotator.Advance conditions store stage store' (.retiring current fresh)) :
    stage = .listing ∧ store' = store ∧ store.active = [current] := by
  cases h with
  | replaced _ _ hactive => exact ⟨rfl, rfl, hactive⟩

/-- A new record is written next after a listing that shows no active key, or after the active one
was retired. -/
theorem of_publishing {fresh : Record}
    (h : rotator.Advance conditions store stage store' (.publishing fresh)) :
    (stage = .listing ∧ store' = store ∧ store.active = []) ∨
      ∃ current, stage = .retiring current fresh ∧ store' = store.put current.retired := by
  cases h with
  | opened _ hactive => exact .inl ⟨rfl, rfl, hactive⟩
  | retired current => exact .inr ⟨current, rfl, rfl⟩

/-- A record that a call gives back is stored as it was given back. -/
theorem mem_of_stored (h : rotator.Advance conditions store stage store' stage')
    (distinct : store.keyIds.Nodup) {record : Record} (hearlier : stage.stored? ≠ some record)
    (hstored : stage'.stored? = some record) : record ∈ store'.records := by
  cases h with
  | ended => exact absurd hstored hearlier
  | failed | kept | opened | replaced | retired => simp [Stage.stored?] at hstored
  | published fresh =>
      cases hstored
      exact Store.mem_put_self distinct record

/-- No record is lost, if the key to retire is held and the new id is not stored. -/
theorem ages (h : rotator.Advance conditions store stage store' stage')
    (distinct : store.keyIds.Nodup)
    (hcurrent : ∀ current fresh, stage = .retiring current fresh → store.Holds current)
    (hpending : ∀ fresh, stage.pending? = some fresh → fresh.keyId ∉ store.keyIds) :
    store.Ages store' := by
  cases h with
  | ended | failed | kept | opened | replaced => exact .refl _
  | retired current fresh => exact Store.ages_put_retired distinct (hcurrent current fresh rfl)
  | published fresh => exact Store.ages_put_of_not_mem (hpending fresh rfl)

/-- The only id that is added is that of the record that was yet to be written. -/
theorem mem_keyIds (h : rotator.Advance conditions store stage store' stage')
    (hcurrent : ∀ current fresh, stage = .retiring current fresh → store.Holds current)
    (hpending : ∀ fresh, stage.pending? = some fresh → fresh.keyId ∉ store.keyIds)
    {keyId : String} (hmem : keyId ∈ store'.keyIds) :
    keyId ∈ store.keyIds ∨
      ∃ fresh, stage.pending? = some fresh ∧ stage'.pending? = none ∧ fresh.keyId = keyId := by
  cases h with
  | ended | failed | kept | opened | replaced => exact .inl hmem
  | retired current fresh =>
      have hid := (hcurrent current fresh rfl).keyId_mem
      rw [Store.keyIds_put_of_mem (current.keyId_retired ▸ hid)] at hmem
      exact .inl hmem
  | published fresh =>
      rw [Store.keyIds_put_of_not_mem (hpending fresh rfl), List.mem_append,
        List.mem_singleton] at hmem
      exact hmem.imp id fun heq ↦ ⟨fresh, rfl, rfl, heq.symm⟩

/-- What a rotation relies on holds after each of its calls, if the id that a listing leads to is
not stored. -/
theorem fits (h : rotator.Advance conditions store stage store' stage')
    (distinct : store.keyIds.Nodup) (hfits : stage.Fits store)
    (hdraw : stage = .listing → ∀ fresh, stage'.pending? = some fresh →
      fresh.keyId ∉ store.keyIds) :
    stage'.Fits store' := by
  cases h with
  | ended | failed | kept | published => trivial
  | opened fresh hactive => exact ⟨hactive, hdraw rfl fresh rfl⟩
  | replaced current fresh hactive => exact ⟨hactive, hdraw rfl fresh rfl⟩
  | retired current fresh =>
      obtain ⟨hactive, hfresh⟩ := hfits
      -- The retired copy replaces a stored record, so the new id is as new as before.
      have hmem : current ∈ store.active := by simp [hactive]
      have hid : current.keyId ∈ store.keyIds := Store.keyId_mem (Store.mem_active.1 hmem).1
      refine ⟨Store.active_put_retired distinct hactive, ?_⟩
      rwa [Store.keyIds_put_of_mem (current.keyId_retired ▸ hid)]

/-- A store stays orderly when the rotation's reliance is warranted. -/
theorem orderly (h : rotator.Advance conditions store stage store' stage')
    (horderly : store.IsOrderly) (hfits : stage.Fits store) : store'.IsOrderly := by
  cases h with
  | ended | failed | kept | opened | replaced => exact horderly
  | retired current fresh => exact horderly.put_retired (Record.isActive_retired current)
  | published fresh => exact .put_fresh horderly.distinct hfits.1 hfits.2

end Rotator.Advance

/-! ## The states of one rotation -/

/-- A rotation with everything that decides its course. -/
structure Rotation where
  rotator : Rotator
  conditions : Conditions
  faults : Faults

namespace Rotation

/-- Performs one call of the rotation. -/
def call (rotation : Rotation) (fault : Option Error) (state : Store × Stage) : Store × Stage :=
  rotation.rotator.step rotation.conditions fault state.1 state.2

/-- The states after the listing, after the first write and after the second. -/
def states (rotation : Rotation) (store : Store) : List (Store × Stage) :=
  let listed := rotation.call rotation.faults.listing (store, .listing)
  let written := rotation.call rotation.faults.firstWrite listed
  [listed, written, rotation.call rotation.faults.secondWrite written]

/-- What becomes of a rotation that is not interrupted. -/
def transcript (rotation : Rotation) (store : Store) : Transcript :=
  rotation.rotator.rotate rotation.conditions rotation.faults store

/-- The id that the rotation draws for a new record, if it comes to that, is not stored. -/
def DrawsFresh (rotation : Rotation) (store : Store) : Prop :=
  ∀ fresh, (rotation.call rotation.faults.listing (store, .listing)).2.pending? = some fresh →
    fresh.keyId ∉ store.keyIds

variable {rotation : Rotation} {store : Store}

/-- The last state of a rotation is its outcome. -/
theorem outcome_mem_states (rotation : Rotation) (store : Store) :
    ((rotation.transcript store).store, .finished (rotation.transcript store).result) ∈
      rotation.states store := by
  have h := rotation.rotator.run_eq_rotate rotation.conditions rotation.faults store
  simp only [Rotator.run] at h
  rw [transcript, ← h]
  simp [states, call]

/-- What every call keeps, on a store with distinct ids where the rotation's reliance is warranted,
holds in every state of a rotation whose new id is not stored. -/
theorem states_induction {P : Store → Stage → Prop} (distinct : store.keyIds.Nodup)
    (hdraw : rotation.DrawsFresh store) (hstart : P store .listing)
    (hkeep : ∀ {before stage after next},
      rotation.rotator.Advance rotation.conditions before stage after next →
      before.keyIds.Nodup → stage.Fits before → P before stage → P after next) :
    ∀ state ∈ rotation.states store, P state.1 state.2 := by
  let Kept (state : Store × Stage) : Prop :=
    state.1.keyIds.Nodup ∧ state.2.Fits state.1 ∧ state.2 ≠ .listing ∧ P state.1 state.2
  -- Only the first call can draw an id, so only there freshness has to be supplied.
  have hcall : ∀ fault state, state.1.keyIds.Nodup → state.2.Fits state.1 →
      P state.1 state.2 →
      (state.2 = .listing → ∀ fresh, (rotation.call fault state).2.pending? = some fresh →
        fresh.keyId ∉ state.1.keyIds) →
      Kept (rotation.call fault state) := by
    intro fault state hdistinct hfits hP hfresh
    have h := rotation.rotator.step_advance rotation.conditions fault state.1 state.2
    exact ⟨h.distinct hdistinct, h.fits hdistinct hfits hfresh, h.ne_listing,
      hkeep h hdistinct hfits hP⟩
  have hlater : ∀ fault state, Kept state → Kept (rotation.call fault state) :=
    fun fault state ⟨hdistinct, hfits, hne, hP⟩ ↦
      hcall fault state hdistinct hfits hP fun heq ↦ absurd heq hne
  have hlisted := hcall rotation.faults.listing (store, .listing) distinct trivial hstart
    fun _ ↦ hdraw
  have hwritten := hlater rotation.faults.firstWrite _ hlisted
  have hended := hlater rotation.faults.secondWrite _ hwritten
  intro state hmem
  simp only [states, List.mem_cons, List.not_mem_nil, or_false] at hmem
  rcases hmem with rfl | rfl | rfl
  · exact hlisted.2.2.2
  · exact hwritten.2.2.2
  · exact hended.2.2.2

/-- Every state of a rotation on an orderly store is orderly, if the new id is not stored. -/
theorem states_orderly (rotation : Rotation) (horderly : store.IsOrderly)
    (hdraw : rotation.DrawsFresh store) : ∀ state ∈ rotation.states store, state.1.IsOrderly :=
  states_induction (P := fun store _ ↦ store.IsOrderly) horderly.distinct hdraw horderly
    fun h _ hfits hbefore ↦ h.orderly hbefore hfits

/-- It is enough that the id that the surroundings offer is not stored. -/
theorem drawsFresh_of_keyId (h : rotation.conditions.draw.keyId ∉ store.keyIds) :
    rotation.DrawsFresh store := by
  intro fresh hfresh
  rwa [Registry.keyId_of_issue (Rotator.issue_of_listing hfresh)]

end Rotation

/-! ## Rotating the small key -/

/-- The rotator that makes the small key every hour. -/
def Rotator.small : Rotator := ⟨.small, ⟨3600, by decide, by decide⟩⟩

/-- An id and a second of one day for a new record. -/
def Conditions.small (keyId : String) (second : Nat) (range : second < 86400) : Conditions :=
  ⟨.small second range, ⟨[], keyId, .small second range⟩⟩

end SigningKeys
