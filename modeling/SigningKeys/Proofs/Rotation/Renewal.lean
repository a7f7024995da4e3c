import SigningKeys.Proofs.Key.PrivateText
import SigningKeys.Proofs.Rotation.Course

/-!
# What a successful rotation leaves behind

A rotation whose calls succeed ends with exactly one active key, and that key's next rotation is yet
to come. The main statement, `Rotation.transcript_leaves_fresh`, says so of every store with
distinct ids and at most one active key, whatever interrupted rotations have left in it, and tells
the two ways apart: the stored key stays (`Strategy.HasFresh`), or a new one takes its place
(`Rotation.Renews`).
-/

namespace SigningKeys

namespace Rotation

/-- What a rotation needs to make a new key: the default generator hands out a pair that can be
written, the id is new, time does not go back between looking at the store and making the key, and
the next rotation of the new key is an instant. -/
structure CanRenew (rotation : Rotation) (store : Store) : Prop where
  generates : ∃ pair privateText,
    rotation.rotator.registry.defaultGenerator.generate rotation.conditions.draw.entropy =
      .ok pair ∧
      pair.privateKey.encode = .ok privateText
  fresh : rotation.conditions.draw.keyId ∉ store.keyIds
  notBefore : rotation.conditions.now ≤ rotation.conditions.draw.createdAt
  dated : ∃ next,
    rotation.conditions.draw.createdAt.shift? rotation.rotator.strategy.seconds = some next

/-- The later store is the earlier one with its active key retired in place and the record, a new
one of the default kind, written after all others. The active key was due, and the record is the
only active one now. -/
structure Renews (rotation : Rotation) (store later : Store) (record : Record) : Prop where
  issued : rotation.rotator.registry.issue rotation.conditions.draw = .ok record
  algorithm : record.algorithm = rotation.rotator.registry.default
  overdue : ∀ current ∈ store.active, ∃ next,
    rotation.rotator.strategy.nextRotation current = .ok next ∧ next ≤ rotation.conditions.now
  records : later.records =
    (store.records.map fun stored ↦ if stored.isActive then stored.retired else stored) ++ [record]
  active : later.active = [record]

variable {rotation : Rotation} {store : Store}

/-- A rotation that can make a new key is issued one. -/
theorem CanRenew.exists_issue (h : rotation.CanRenew store) :
    ∃ fresh, rotation.rotator.registry.issue rotation.conditions.draw = .ok fresh := by
  obtain ⟨pair, privateText, hpair, hprivate⟩ := h.generates
  exact Registry.exists_issue hpair hprivate

/-- A rotation that can make a new key draws a new id. -/
theorem CanRenew.drawsFresh (h : rotation.CanRenew store) : rotation.DrawsFresh store :=
  drawsFresh_of_keyId h.fresh

/-- The next rotation of the key that is made is yet to come. -/
theorem CanRenew.exists_nextRotation (h : rotation.CanRenew store) {record : Record}
    (hissue : rotation.rotator.registry.issue rotation.conditions.draw = .ok record) :
    ∃ next, rotation.rotator.strategy.nextRotation record = .ok next ∧
      rotation.conditions.now < next := by
  obtain ⟨next, hnext⟩ := h.dated
  rw [← Registry.createdAt_of_issue hissue] at hnext
  have hdated : rotation.rotator.strategy.nextRotation record = .ok next :=
    Strategy.nextRotation_eq_ok_iff.2 hnext
  refine ⟨next, hdated, ?_⟩
  calc rotation.conditions.now
      ≤ rotation.conditions.draw.createdAt := h.notBefore
    _ = record.createdAt := (Registry.createdAt_of_issue hissue).symm
    _ < next := Strategy.createdAt_lt_nextRotation hdated

/-- A rotation that gives back a record has renewed the store with it, if the ids that are drawn are
new. -/
theorem renews_of_stored (distinct : store.keyIds.Nodup) (hdraw : rotation.DrawsFresh store)
    {record : Record} (h : (rotation.transcript store).result = .ok (some record)) :
    rotation.Renews store (rotation.transcript store).store record := by
  have hfresh := keyId_not_mem_of_stored distinct hdraw h
  obtain ⟨-, ⟨current, hdue⟩, hissue, hstore⟩ := of_stored distinct h
  refine ⟨hissue, Registry.algorithm_of_issue hissue, ?_, ?_, active_of_stored distinct hdraw h⟩
  · intro active hmem
    cases hdue with
    | vacant hactive => simp [hactive] at hmem
    | overdue current next hactive hnext hle =>
        rw [hactive, List.mem_singleton] at hmem
        exact ⟨next, hmem ▸ hnext, hle⟩
  · rw [hstore, Store.records_put_of_not_mem (by rwa [Store.keyIds_retireActive])]
    rfl

/-- A rotation whose calls succeed gives back nothing exactly when a key is fresh, and leaves the
store alone then; otherwise it gives back a new record. -/
theorem exists_result (atMostOne : store.active.length ≤ 1)
    (hfaults : rotation.faults = ⟨none, none, none⟩)
    (hdates : ∀ current ∈ store.active, ∃ next,
      rotation.rotator.strategy.nextRotation current = .ok next)
    (hrenew : ¬ rotation.rotator.strategy.HasFresh rotation.conditions.now store →
      rotation.CanRenew store) :
    rotation.transcript store = ⟨store, [], .ok none⟩ ∧
        rotation.rotator.strategy.HasFresh rotation.conditions.now store ∨
      (∃ record, (rotation.transcript store).result = .ok (some record)) ∧
        ¬ rotation.rotator.strategy.HasFresh rotation.conditions.now store := by
  have hcourse := rotation.transcript_course store
  generalize rotation.transcript store = transcript at hcourse
  cases hcourse with
  | unlisted error hlisting => simp [hfaults] at hlisting
  | several _ hlength => omega
  | undated current _ hactive hshift =>
      obtain ⟨next, hnext⟩ := hdates current (by simp [hactive])
      exact absurd hnext (Strategy.nextRotation_ne_ok hshift next)
  | kept current next _ hactive hnext hlt =>
      exact .inl ⟨rfl, current, by simp [hactive], next, hnext, hlt⟩
  | unissued current error _ hdue herror =>
      obtain ⟨fresh, hissue⟩ := (hrenew hdue.not_hasFresh).exists_issue
      rw [herror] at hissue
      cases hissue
  | unopened _ _ _ _ _ hfirst | unretired _ _ _ _ _ _ hfirst => simp [hfaults] at hfirst
  | unpublished _ _ _ _ _ _ _ hsecond => simp [hfaults] at hsecond
  | opened fresh _ hdue => exact .inr ⟨⟨fresh, rfl⟩, hdue.not_hasFresh⟩
  | replaced current fresh _ hdue => exact .inr ⟨⟨fresh, rfl⟩, hdue.not_hasFresh⟩

/-- A rotation whose calls succeed, on a store with distinct ids and at most one active key, leaves
exactly one active key, whose next rotation is yet to come. If a fresh key is stored it gives back
nothing and changes nothing; otherwise it gives back the record with which it renews the store. -/
theorem transcript_leaves_fresh (distinct : store.keyIds.Nodup)
    (atMostOne : store.active.length ≤ 1)
    (hfaults : rotation.faults = ⟨none, none, none⟩)
    (hdates : ∀ current ∈ store.active, ∃ next,
      rotation.rotator.strategy.nextRotation current = .ok next)
    (hrenew : ¬ rotation.rotator.strategy.HasFresh rotation.conditions.now store →
      rotation.CanRenew store) :
    let later := (rotation.transcript store).store
    (∃ record next, later.active = [record] ∧
      rotation.rotator.strategy.nextRotation record = .ok next ∧ rotation.conditions.now < next) ∧
    ((rotation.transcript store).result = .ok none ∧ later = store ∧
        rotation.rotator.strategy.HasFresh rotation.conditions.now store ∨
      ∃ record, (rotation.transcript store).result = .ok (some record) ∧
        rotation.Renews store later record ∧
        ¬ rotation.rotator.strategy.HasFresh rotation.conditions.now store) := by
  intro later
  rcases exists_result atMostOne hfaults hdates hrenew with ⟨htranscript, hkept⟩ | ⟨hstored, hdue⟩
  · have hlater : later = store := congrArg Transcript.store htranscript
    refine ⟨?_, .inl ⟨congrArg Transcript.result htranscript, hlater, hkept⟩⟩
    obtain ⟨current, hmem, next, hnext, hlt⟩ := hkept
    have hone : store.active = [current] := by
      obtain ⟨other, hother⟩ := List.length_eq_one_iff.1
        (Nat.le_antisymm atMostOne (List.length_pos_of_mem hmem))
      rw [hother, List.mem_singleton] at hmem
      rw [hother, hmem]
    exact ⟨current, next, hlater ▸ hone, hnext, hlt⟩
  · obtain ⟨record, hresult⟩ := hstored
    have hcan := hrenew hdue
    have hrenews := renews_of_stored distinct hcan.drawsFresh hresult
    obtain ⟨next, hnext, hlt⟩ := hcan.exists_nextRotation hrenews.issued
    exact ⟨⟨record, next, hrenews.active, hnext, hlt⟩, .inr ⟨record, hresult, hrenews, hdue⟩⟩

/-- A rotation that failed between its writes has left no active key; the next one stores one. -/
theorem transcript_leaves_fresh_interrupted :
    let failed : Rotation :=
      ⟨.small, .small "first" 3600 (by decide), none, none, some (.general .severalActiveKeys)⟩
    let store := (failed.transcript ⟨[.small]⟩).store
    let rotation : Rotation := ⟨.small, .small "second" 7200 (by decide), none, none, none⟩
    store.keyIds.Nodup ∧ store.active.length ≤ 1 ∧ rotation.faults = ⟨none, none, none⟩ ∧
      (∀ current ∈ store.active, ∃ next,
        rotation.rotator.strategy.nextRotation current = .ok next) ∧
      rotation.CanRenew store ∧
      let later := (rotation.transcript store).store
      (∃ record next, later.active = [record] ∧
        rotation.rotator.strategy.nextRotation record = .ok next ∧
        rotation.conditions.now < next) ∧
      ((rotation.transcript store).result = .ok none ∧ later = store ∧
          rotation.rotator.strategy.HasFresh rotation.conditions.now store ∨
        ∃ record, (rotation.transcript store).result = .ok (some record) ∧
          rotation.Renews store later record ∧
          ¬ rotation.rotator.strategy.HasFresh rotation.conditions.now store) := by
  intro failed store rotation
  have distinct : store.keyIds.Nodup := by decide +kernel
  have hnone : store.active = [] := by decide +kernel
  have atMostOne : store.active.length ≤ 1 := by simp [hnone]
  have hdates : ∀ current ∈ store.active, ∃ next,
      rotation.rotator.strategy.nextRotation current = .ok next := by simp [hnone]
  have hcan : rotation.CanRenew store :=
    { generates := ⟨_, _, rfl, PrivateKey.encode_smallKey⟩
      fresh := by decide +kernel
      notBefore := by decide
      dated := ⟨.small 10800 (by decide), by decide⟩ }
  exact ⟨distinct, atMostOne, rfl, hdates, hcan,
    transcript_leaves_fresh distinct atMostOne rfl hdates fun _ ↦ hcan⟩

end Rotation

end SigningKeys
