import SigningKeys.Proofs.Record.Publication
import SigningKeys.Proofs.Rotation.History

/-!
# Key sets while keys rotate

Those who verify must not lose a key to a rotation. `Moment.Publishes` says how the key set of a
store goes on from an earlier one, and every call of a rotation keeps it. The main statement,
`history_extends_keySet`, says that the keys of a store stay published, in place, at every moment of
any number of rotations, and that each new record adds exactly its own key.
-/

namespace SigningKeys

/-- The key set at a moment is the one of an earlier store, followed by one key for each record that
rotations have added since, in order; the same holds of the ids. -/
structure Moment.Publishes (earlier : Store) (keys : List Jwk) (moment : Moment) : Prop where
  keyIds : moment.store.keyIds = earlier.keyIds ++ moment.stored.map Record.keyId
  keySet : ∃ added, moment.store.keySet none = .ok ⟨keys ++ added⟩ ∧
    List.Forall₂ (fun record key ↦ record.publicJwk = .ok key) moment.stored added

namespace Rotator.Advance

variable {rotator : Rotator} {conditions : Conditions} {store store' : Store}
  {stage stage' : Stage}

/-- A record that is yet to be written can be published, if the default generator hands out nothing
else. -/
theorem exists_publicJwk (h : rotator.Advance conditions store stage store' stage')
    (hgenerator : rotator.registry.defaultGenerator.IsPublishable)
    (hpending : ∀ fresh, stage.pending? = some fresh → ∃ key, fresh.publicJwk = .ok key) :
    ∀ fresh, stage'.pending? = some fresh → ∃ key, fresh.publicJwk = .ok key := by
  intro fresh hfresh
  cases h with
  | ended | failed | kept | published => simp [Stage.pending?] at hfresh
  | opened other _ hissue | replaced _ other _ hissue =>
      cases hfresh
      exact Registry.exists_publicJwk_of_issue hgenerator hissue
  | retired current other => exact hpending fresh hfresh

/-- Each call keeps the published keys, and adds one exactly when it writes a new record. -/
theorem publishes (h : rotator.Advance conditions store stage store' stage')
    (distinct : store.keyIds.Nodup) (hfits : stage.Fits store)
    (hpending : ∀ fresh, stage.pending? = some fresh → ∃ key, fresh.publicJwk = .ok key)
    {earlier : Store} {keys : List Jwk} {stored : List Record}
    (hbefore : Moment.Publishes earlier keys ⟨store, stored ++ stage.stored?.toList⟩) :
    Moment.Publishes earlier keys ⟨store', stored ++ stage'.stored?.toList⟩ := by
  cases h with
  | ended => exact hbefore
  | failed _ error hopen =>
      rw [hopen] at hbefore
      exact hbefore
  | kept | opened | replaced => exact hbefore
  | retired current fresh =>
      -- The record that is retired is stored, so the write is in place.
      have hmem : current ∈ store.records := by
        have hactive : current ∈ store.active := by simp [hfits.1]
        exact (Store.mem_active.1 hactive).1
      have hid : current.retired.keyId ∈ store.keyIds := by
        rw [current.keyId_retired]
        exact Store.keyId_mem hmem
      refine ⟨?_, ?_⟩
      · rw [Store.keyIds_put_of_mem hid]
        exact hbefore.keyIds
      · rw [Store.keySet_put_retired distinct hmem]
        exact hbefore.keySet
  | published fresh =>
      -- The new id is not stored, so the write appends.
      obtain ⟨key, hkey⟩ := hpending fresh rfl
      obtain ⟨added, hset, hadded⟩ := hbefore.keySet
      have hstored : stored ++ (Stage.publishing fresh).stored?.toList = stored :=
        List.append_nil stored
      rw [hstored] at hadded
      refine ⟨?_, added ++ [key], ?_, ?_⟩
      · show (store.put fresh).keyIds = earlier.keyIds ++ (stored ++ [fresh]).map Record.keyId
        have hbeforeIds : store.keyIds = earlier.keyIds ++ stored.map Record.keyId := by
          simpa [hstored] using hbefore.keyIds
        rw [Store.keyIds_put_of_not_mem hfits.2, hbeforeIds, List.map_append, List.append_assoc]
        rfl
      · rw [← List.append_assoc]
        exact Store.keySet_put_of_not_mem hfits.2 hset hkey
      · exact List.rel_append hadded (.cons hkey .nil)

end Rotator.Advance

/-- Every state of a rotation keeps the published keys and has one more for its new record. -/
theorem Rotation.states_publish {rotation : Rotation} {moment : Moment} {earlier : Store}
    {keys : List Jwk}
    (hgenerator : rotation.rotator.registry.defaultGenerator.IsPublishable)
    (hdraw : rotation.DrawsFresh moment.store) (distinct : moment.store.keyIds.Nodup)
    (hmoment : moment.Publishes earlier keys) :
    ∀ state ∈ rotation.states moment.store, state.1.keyIds.Nodup ∧
      Moment.Publishes earlier keys ⟨state.1, moment.stored ++ state.2.stored?.toList⟩ := by
  -- What is pending has to be carried along: the record is drawn one or two calls before it is
  -- written.
  let Kept (store : Store) (stage : Stage) : Prop :=
    (store.keyIds.Nodup ∧
      Moment.Publishes earlier keys ⟨store, moment.stored ++ stage.stored?.toList⟩) ∧
      ∀ fresh, stage.pending? = some fresh → ∃ key, fresh.publicJwk = .ok key
  have hstart : Kept moment.store .listing := by
    refine ⟨⟨distinct, ?_⟩, fun fresh hfresh ↦ nomatch hfresh⟩
    rw [show moment.stored ++ Stage.listing.stored?.toList = moment.stored from
      List.append_nil moment.stored]
    exact hmoment
  have hstates := states_induction (P := Kept) distinct hdraw hstart
    fun h hdistinct hfits ⟨⟨_, hbefore⟩, hpending⟩ ↦
      ⟨⟨h.distinct hdistinct, h.publishes hdistinct hfits hpending hbefore⟩,
        h.exists_publicJwk hgenerator hpending⟩
  exact fun state hmem ↦ (hstates state hmem).1

/-- However many rotations run on a store with distinct ids, whatever fails in them and whenever one
looks, the store publishes the keys that it published before, in the same order, and then exactly
one key for each record that was stored since. -/
theorem history_extends_keySet {store : Store} {keys : List Jwk} {rotations : List Rotation}
    (distinct : store.keyIds.Nodup) (hkeys : store.keySet none = .ok ⟨keys⟩)
    (hgenerators : ∀ rotation ∈ rotations,
      rotation.rotator.registry.defaultGenerator.IsPublishable)
    (hdraw : DrawFresh ⟨store, []⟩ (rotations.map .rotate)) :
    ∀ moment ∈ history ⟨store, []⟩ (rotations.map .rotate),
      moment.store.keyIds = store.keyIds ++ moment.stored.map Record.keyId ∧
        ∃ added, moment.store.keySet none = .ok ⟨keys ++ added⟩ ∧
          List.Forall₂ (fun record key ↦ record.publicJwk = .ok key) moment.stored added := by
  have hstart : Moment.Publishes store keys ⟨store, []⟩ := by
    refine ⟨(List.append_nil _).symm, [], ?_, .nil⟩
    rw [List.append_nil]
    exact hkeys
  have hhistory := history_induction
    (P := fun moment ↦ moment.store.keyIds.Nodup ∧ moment.Publishes store keys)
    (fun happening hmem moment hfresh ⟨hdistinct, hmoment⟩ later hlater ↦ ?_) hdraw
    ⟨distinct, hstart⟩
  · exact fun moment hmem ↦ ⟨(hhistory moment hmem).2.keyIds, (hhistory moment hmem).2.keySet⟩
  · obtain ⟨rotation, hrotation, rfl⟩ := List.mem_map.1 hmem
    obtain ⟨state, hstate, rfl⟩ := List.mem_map.1 hlater
    exact Rotation.states_publish (hgenerators rotation hrotation) hfresh hdistinct hmoment state
      hstate

/-- The generator of the small key hands out a key that can be published. -/
theorem Generator.small_isPublishable : Generator.small.IsPublishable := by
  intro entropy pair h
  cases h
  exact ⟨rfl, rfl, by decide +kernel⟩

/-- A rotation retires the published key and fails to write its own; the next one stores a key. -/
theorem history_extends_keySet_interrupted :
    let published : Record :=
      { Record.small with publicText := smallPublicText }
    let store : Store := ⟨[published]⟩
    let keys : List Jwk := [.signature "small" .rsa (.rsa [0x01, 0x08, 0x07] none)]
    let rotations : List Rotation :=
      [⟨.small, .small "first" 3600 (by decide), none, none, some (.general .severalActiveKeys)⟩,
        ⟨.small, .small "second" 7200 (by decide), none, none, none⟩]
    store.keyIds.Nodup ∧ store.keySet none = .ok ⟨keys⟩ ∧
      (∀ rotation ∈ rotations, rotation.rotator.registry.defaultGenerator.IsPublishable) ∧
      DrawFresh ⟨store, []⟩ (rotations.map .rotate) ∧
      ∀ moment ∈ history ⟨store, []⟩ (rotations.map .rotate),
        moment.store.keyIds = store.keyIds ++ moment.stored.map Record.keyId ∧
          ∃ added, moment.store.keySet none = .ok ⟨keys ++ added⟩ ∧
            List.Forall₂ (fun record key ↦ record.publicJwk = .ok key) moment.stored added := by
  intro published store keys rotations
  have distinct : store.keyIds.Nodup := by decide
  have hkeys : store.keySet none = .ok ⟨keys⟩ := by decide +kernel
  have hgenerators : ∀ rotation ∈ rotations,
      rotation.rotator.registry.defaultGenerator.IsPublishable := by
    intro rotation hmem
    simp only [rotations, List.mem_cons, List.not_mem_nil, or_false] at hmem
    rcases hmem with rfl | rfl <;> exact Generator.small_isPublishable
  have hdraw : DrawFresh ⟨store, []⟩ (rotations.map .rotate) :=
    ⟨Rotation.drawsFresh_of_keyId (by decide +kernel),
      Rotation.drawsFresh_of_keyId (by decide +kernel), trivial⟩
  exact ⟨distinct, hkeys, hgenerators, hdraw,
    history_extends_keySet distinct hkeys hgenerators hdraw⟩

end SigningKeys
