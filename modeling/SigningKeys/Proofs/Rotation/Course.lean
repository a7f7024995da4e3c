import SigningKeys.Proofs.Rotation.Calls
import SigningKeys.Proofs.Time.Instant

/-!
# The course of a rotation

What can become of a rotation that is not interrupted. Read `Rotation.Course` first: it has one case
for each exit, with everything that was found and done on the way, and `Rotation.transcript_course`
says that there is no other. `attempts` lists rotations that follow one another, each with the store
that it starts from.
-/

namespace SigningKeys

/-! ## When a new key is due -/

namespace Strategy

variable {strategy : Strategy} {record : Record} {next : Instant}

/-- A next rotation is found when the period can be added to the time at which the record was
made. -/
theorem nextRotation_eq_ok_iff :
    strategy.nextRotation record = .ok next ↔
      record.createdAt.shift? strategy.seconds = some next := by
  unfold nextRotation
  cases record.createdAt.shift? strategy.seconds <;> simp

/-- Without a next rotation the error names the record. -/
theorem nextRotation_eq_error_iff {error : Error} :
    strategy.nextRotation record = .error error ↔
      record.createdAt.shift? strategy.seconds = none ∧
        error = .configuration (.rotationTime record.keyId) := by
  unfold nextRotation
  cases record.createdAt.shift? strategy.seconds <;> simp [eq_comm]

/-- A record whose period ends at no instant has no next rotation. -/
theorem nextRotation_ne_ok (h : record.createdAt.shift? strategy.seconds = none)
    (next : Instant) : strategy.nextRotation record ≠ .ok next := by
  simp [nextRotation_eq_ok_iff, h]

/-- The next rotation of a record lies after the time at which it was made. -/
theorem createdAt_lt_nextRotation (h : strategy.nextRotation record = .ok next) :
    record.createdAt < next :=
  Instant.lt_of_shift? strategy.seconds_pos (nextRotation_eq_ok_iff.1 h)

end Strategy

/-- A new key is due in a store: it takes the place of none, if there is no active key, or of the
only active key, whose next rotation has come. -/
inductive Strategy.Due (strategy : Strategy) (now : Instant) (store : Store) :
    Option Record → Prop where
  | vacant :
      store.active = [] →
      Due strategy now store none
  | overdue (current next) :
      store.active = [current] →
      strategy.nextRotation current = .ok next →
      next ≤ now →
      Due strategy now store (some current)

/-- A key is active whose next rotation is yet to come. -/
def Strategy.HasFresh (strategy : Strategy) (now : Instant) (store : Store) : Prop :=
  ∃ current ∈ store.active, ∃ next, strategy.nextRotation current = .ok next ∧ now < next

/-- A new key is not due while one is fresh. -/
theorem Strategy.Due.not_hasFresh {strategy : Strategy} {now : Instant} {store : Store}
    {current : Option Record} (h : strategy.Due now store current) :
    ¬ strategy.HasFresh now store := by
  rintro ⟨record, hmem, next, hnext, hlt⟩
  cases h with
  | vacant hactive => simp [hactive] at hmem
  | overdue current due hactive hdue hle =>
      rw [hactive, List.mem_singleton] at hmem
      rw [hmem, hdue] at hnext
      cases hnext
      exact absurd hlt (not_lt.2 hle)

/-! ## One rotation -/

namespace Rotation

/-- Every exit of a rotation: what it found, which call failed, and its transcript. -/
inductive Course (rotation : Rotation) (store : Store) : Transcript → Prop where
  /-- The store was not listed. -/
  | unlisted (error) :
      rotation.faults.listing = some error →
      Course rotation store ⟨store, [], .error error⟩
  /-- More than one key is active. -/
  | several :
      rotation.faults.listing = none →
      2 ≤ store.active.length →
      Course rotation store ⟨store, [], .error (.general .severalActiveKeys)⟩
  /-- The next rotation of the active key is no instant. -/
  | undated (current) :
      rotation.faults.listing = none →
      store.active = [current] →
      current.createdAt.shift? rotation.rotator.strategy.seconds = none →
      Course rotation store
        ⟨store, [], .error (.configuration (.rotationTime current.keyId))⟩
  /-- The active key stays. -/
  | kept (current next) :
      rotation.faults.listing = none →
      store.active = [current] →
      rotation.rotator.strategy.nextRotation current = .ok next →
      rotation.conditions.now < next →
      Course rotation store ⟨store, [], .ok none⟩
  /-- A new key is due, and none was made. -/
  | unissued (current error) :
      rotation.faults.listing = none →
      rotation.rotator.strategy.Due rotation.conditions.now store current →
      rotation.rotator.registry.issue rotation.conditions.draw = .error error →
      Course rotation store ⟨store, [], .error error⟩
  /-- The first key was not written. -/
  | unopened (fresh error) :
      rotation.faults.listing = none →
      rotation.rotator.strategy.Due rotation.conditions.now store none →
      rotation.rotator.registry.issue rotation.conditions.draw = .ok fresh →
      rotation.faults.firstWrite = some error →
      Course rotation store ⟨store, [⟨fresh, false⟩], .error error⟩
  /-- The first key was written. -/
  | opened (fresh) :
      rotation.faults.listing = none →
      rotation.rotator.strategy.Due rotation.conditions.now store none →
      rotation.rotator.registry.issue rotation.conditions.draw = .ok fresh →
      rotation.faults.firstWrite = none →
      Course rotation store ⟨store.put fresh, [⟨fresh, true⟩], .ok (some fresh)⟩
  /-- The active key was not retired. -/
  | unretired (current fresh error) :
      rotation.faults.listing = none →
      rotation.rotator.strategy.Due rotation.conditions.now store (some current) →
      rotation.rotator.registry.issue rotation.conditions.draw = .ok fresh →
      rotation.faults.firstWrite = some error →
      Course rotation store ⟨store, [⟨current.retired, false⟩], .error error⟩
  /-- The active key was retired, and the new one was not written. -/
  | unpublished (current fresh error) :
      rotation.faults.listing = none →
      rotation.rotator.strategy.Due rotation.conditions.now store (some current) →
      rotation.rotator.registry.issue rotation.conditions.draw = .ok fresh →
      rotation.faults.firstWrite = none →
      rotation.faults.secondWrite = some error →
      Course rotation store
        ⟨store.put current.retired, [⟨current.retired, true⟩, ⟨fresh, false⟩], .error error⟩
  /-- The new key took the place of the active one. -/
  | replaced (current fresh) :
      rotation.faults.listing = none →
      rotation.rotator.strategy.Due rotation.conditions.now store (some current) →
      rotation.rotator.registry.issue rotation.conditions.draw = .ok fresh →
      rotation.faults.firstWrite = none →
      rotation.faults.secondWrite = none →
      Course rotation store
        ⟨(store.put current.retired).put fresh, [⟨current.retired, true⟩, ⟨fresh, true⟩],
          .ok (some fresh)⟩

variable {rotation : Rotation} {store : Store}

/-- Writing what a plan says is one of the last five exits. -/
theorem perform_course {current : Option Record} {fresh : Record}
    (hlisting : rotation.faults.listing = none)
    (hdue : rotation.rotator.strategy.Due rotation.conditions.now store current)
    (hissue : rotation.rotator.registry.issue rotation.conditions.draw = .ok fresh) :
    rotation.Course store (Rotator.perform rotation.faults store ⟨current, fresh⟩) := by
  cases current with
  | none =>
      cases hfirst : rotation.faults.firstWrite with
      | some error =>
          simpa [Rotator.perform, Rotator.publish, hfirst] using
            Course.unopened fresh error hlisting hdue hissue hfirst
      | none =>
          simpa [Rotator.perform, Rotator.publish, hfirst] using
            Course.opened fresh hlisting hdue hissue hfirst
  | some current =>
      cases hfirst : rotation.faults.firstWrite with
      | some error =>
          simpa [Rotator.perform, hfirst] using
            Course.unretired current fresh error hlisting hdue hissue hfirst
      | none =>
          cases hsecond : rotation.faults.secondWrite with
          | some error =>
              simpa [Rotator.perform, Rotator.publish, hfirst, hsecond] using
                Course.unpublished current fresh error hlisting hdue hissue hfirst hsecond
          | none =>
              simpa [Rotator.perform, Rotator.publish, hfirst, hsecond] using
                Course.replaced current fresh hlisting hdue hissue hfirst hsecond

/-- A rotation ends by one of the exits. -/
theorem transcript_course (rotation : Rotation) (store : Store) :
    rotation.Course store (rotation.transcript store) := by
  cases hlisting : rotation.faults.listing with
  | some error =>
      simpa [transcript, Rotator.rotate, hlisting] using Course.unlisted error hlisting
  | none =>
      simp only [transcript, Rotator.rotate, hlisting, Rotator.plan, Strategy.decide]
      -- The decision looks at the active records only: none, one, or too many.
      rcases hactive : store.records.filter Record.isActive with - | ⟨current, - | ⟨second, rest⟩⟩
      · have hdue : rotation.rotator.strategy.Due rotation.conditions.now store none :=
          .vacant hactive
        cases hissue : rotation.rotator.registry.issue rotation.conditions.draw with
        | error error => exact .unissued none error hlisting hdue hissue
        | ok fresh => exact perform_course hlisting hdue hissue
      · cases hnext : rotation.rotator.strategy.nextRotation current with
        | error error =>
            obtain ⟨hshift, rfl⟩ := Strategy.nextRotation_eq_error_iff.1 hnext
            simpa [hnext, bind, Except.bind] using Course.undated current hlisting hactive hshift
        | ok next =>
            by_cases hlt : rotation.conditions.now < next
            · simpa [hnext, bind, Except.bind, pure, Except.pure, hlt] using
                Course.kept current next hlisting hactive hnext hlt
            · have hdue : rotation.rotator.strategy.Due rotation.conditions.now store current :=
                .overdue current next hactive hnext hlt
              cases hissue : rotation.rotator.registry.issue rotation.conditions.draw with
              | error error =>
                  simpa [hnext, bind, Except.bind, pure, Except.pure, hlt, hissue] using
                    Course.unissued current error hlisting hdue hissue
              | ok fresh =>
                  simpa [hnext, bind, Except.bind, pure, Except.pure, hlt, hissue] using
                    perform_course hlisting hdue hissue
      · refine .several hlisting ?_
        rw [Store.active, hactive]
        exact Nat.le_add_left 2 rest.length

/-- A rotation keeps ids distinct. -/
theorem distinct_transcript (rotation : Rotation) (distinct : store.keyIds.Nodup) :
    (rotation.transcript store).store.keyIds.Nodup := by
  have hcourse := rotation.transcript_course store
  generalize rotation.transcript store = transcript at hcourse ⊢
  cases hcourse with
  | unlisted | several | undated | kept | unissued | unopened | unretired => exact distinct
  | opened | unpublished => exact Store.distinct_put distinct _
  | replaced => exact Store.distinct_put (Store.distinct_put distinct _) _

/-- A rotation that gives back a new record found that one was due, and stored the record after it
retired the active key, if there was one. -/
theorem of_stored (distinct : store.keyIds.Nodup) {record : Record}
    (h : (rotation.transcript store).result = .ok (some record)) :
    rotation.faults.listing = none ∧
      (∃ current, rotation.rotator.strategy.Due rotation.conditions.now store current) ∧
      rotation.rotator.registry.issue rotation.conditions.draw = .ok record ∧
      (rotation.transcript store).store = store.retireActive.put record := by
  have hcourse := rotation.transcript_course store
  generalize rotation.transcript store = transcript at hcourse h
  cases hcourse with
  | unlisted | several | undated | kept | unissued | unopened | unretired | unpublished => cases h
  | opened fresh hlisting hdue hissue =>
      cases h
      obtain ⟨hactive⟩ := hdue
      refine ⟨hlisting, ⟨none, .vacant hactive⟩, hissue, ?_⟩
      rw [Store.retireActive_eq_self hactive]
  | replaced current fresh hlisting hdue hissue =>
      cases h
      obtain - | ⟨_, next, hactive, hnext, hle⟩ := hdue
      refine ⟨hlisting, ⟨some current, .overdue current next hactive hnext hle⟩, hissue, ?_⟩
      rw [Store.put_retired_eq_retireActive distinct hactive]

/-- A rotation for which a new key is due plans to write the record that is issued. -/
theorem plan_of_due {current : Option Record} {record : Record}
    (hdue : rotation.rotator.strategy.Due rotation.conditions.now store current)
    (hissue : rotation.rotator.registry.issue rotation.conditions.draw = .ok record) :
    rotation.rotator.plan rotation.conditions store.records = .ok (some ⟨current, record⟩) := by
  unfold Rotator.plan Strategy.decide
  cases hdue with
  | vacant hactive =>
      rw [Store.active] at hactive
      simp [hactive, hissue, bind, Except.bind, pure, Except.pure]
  | overdue current next hactive hnext hle =>
      rw [Store.active] at hactive
      have hkeep : ¬ rotation.conditions.now < next := not_lt.2 hle
      simp [hactive, hnext, hkeep, hissue, bind, Except.bind, pure, Except.pure]

/-- The id of a record that a rotation gives back was not stored before, if the ids that are drawn
are new. -/
theorem keyId_not_mem_of_stored (distinct : store.keyIds.Nodup) (hdraw : rotation.DrawsFresh store)
    {record : Record} (h : (rotation.transcript store).result = .ok (some record)) :
    record.keyId ∉ store.keyIds := by
  obtain ⟨hlisting, ⟨current, hdue⟩, hissue, -⟩ := of_stored distinct h
  refine hdraw record ?_
  simp only [call, Rotator.step, hlisting, Rotator.stageAfterListing, plan_of_due hdue hissue]
  cases current <;> rfl

/-- A record that a rotation gives back is the only active one, if the ids that are drawn are
new. -/
theorem active_of_stored (distinct : store.keyIds.Nodup) (hdraw : rotation.DrawsFresh store)
    {record : Record} (h : (rotation.transcript store).result = .ok (some record)) :
    (rotation.transcript store).store.active = [record] := by
  have hfresh := keyId_not_mem_of_stored distinct hdraw h
  obtain ⟨-, -, hissue, hstore⟩ := of_stored distinct h
  rw [hstore, Store.active_put_of_not_mem (by rwa [Store.keyIds_retireActive]),
    Store.active_retireActive, List.nil_append,
    List.filter_cons_of_pos (Registry.isActive_of_issue hissue), List.filter_nil]

end Rotation

/-! ## Rotations that follow one another -/

/-- A rotation and the store that it starts from. -/
structure Attempt where
  rotation : Rotation
  store : Store

/-- What becomes of the rotation. -/
def Attempt.transcript (attempt : Attempt) : Transcript :=
  attempt.rotation.transcript attempt.store

/-- Each rotation of a list, on the store that the ones before it leave behind. -/
def attempts (store : Store) : List Rotation → List Attempt
  | [] => []
  | rotation :: rest => ⟨rotation, store⟩ :: attempts (rotation.transcript store).store rest

/-- What is attempted is one of the rotations. -/
theorem rotation_mem_of_mem_attempts {store : Store} {rotations : List Rotation} {attempt : Attempt}
    (h : attempt ∈ attempts store rotations) : attempt.rotation ∈ rotations := by
  induction rotations generalizing store with
  | nil => simp [attempts] at h
  | cons rotation rest ih =>
      rw [attempts, List.mem_cons] at h
      rcases h with rfl | h
      · exact List.mem_cons_self
      · exact List.mem_cons_of_mem rotation (ih h)

end SigningKeys
