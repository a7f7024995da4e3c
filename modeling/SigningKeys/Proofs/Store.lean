import Mathlib.Data.List.Nodup
import SigningKeys.Store

/-!
# Stores with distinct ids

What writing, removing and redating do to the ids and to the active records of a store, and how a
stored record may change. When the ids are distinct, a write either replaces the one record with
its id or is appended (`mem_put_iff`, `records_put_of_not_mem`). A store is orderly when its ids
are distinct and at most one of its records is active.
-/

namespace SigningKeys

namespace Record

/-- A retired copy keeps the id. -/
@[simp]
theorem keyId_retired (record : Record) : record.retired.keyId = record.keyId := rfl

/-- A retired copy does not sign. -/
@[simp]
theorem isActive_retired (record : Record) : record.retired.isActive = false := rfl

/-- The two records are one key at two moments: everything but the status agrees, and the status
may have gone from active to retired. -/
structure Ages (earlier later : Record) : Prop where
  keyId : later.keyId = earlier.keyId
  algorithm : later.algorithm = earlier.algorithm
  publicText : later.publicText = earlier.publicText
  privateText : later.privateText = earlier.privateText
  createdAt : later.createdAt = earlier.createdAt
  status : later.status = earlier.status ∨ earlier.status = .active ∧ later.status = .retired

/-- A record ages into itself and into its retired copy, and into nothing else. -/
theorem ages_iff {earlier later : Record} :
    earlier.Ages later ↔ later = earlier ∨ later = earlier.retired := by
  constructor
  · intro h
    obtain ⟨keyId, algorithm, publicText, privateText, createdAt, status⟩ := earlier
    obtain ⟨laterId, laterAlgorithm, laterPublic, laterPrivate, laterTime, laterStatus⟩ := later
    obtain ⟨rfl, rfl, rfl, rfl, rfl, rfl | ⟨-, rfl⟩⟩ := h
    · exact .inl rfl
    · exact .inr rfl
  · rintro (rfl | rfl)
    · exact ⟨rfl, rfl, rfl, rfl, rfl, .inl rfl⟩
    · refine ⟨rfl, rfl, rfl, rfl, rfl, ?_⟩
      cases h : earlier.status with
      | active => exact .inr ⟨rfl, rfl⟩
      | retired => exact .inl rfl

/-- A record ages into itself. -/
theorem Ages.refl (record : Record) : record.Ages record := ages_iff.2 (.inl rfl)

/-- A record ages into its retired copy. -/
theorem Ages.retired (record : Record) : record.Ages record.retired := ages_iff.2 (.inr rfl)

/-- Ageing in two steps is ageing. -/
theorem Ages.trans {first second third : Record} (h : first.Ages second)
    (hnext : second.Ages third) : first.Ages third := by
  rw [ages_iff] at h hnext ⊢
  rcases h with rfl | rfl
  · exact hnext
  · rcases hnext with rfl | rfl <;> exact .inr rfl

/-- Whatever a record has aged into, its retired copy is the same. -/
theorem Ages.retired_eq {earlier later : Record} (h : earlier.Ages later) :
    later.retired = earlier.retired := by
  rcases ages_iff.1 h with rfl | rfl <;> rfl

/-- A record that does not sign is its own retired copy. -/
theorem retired_eq_self {record : Record} (h : record.isActive = false) :
    record.retired = record := by
  obtain ⟨keyId, algorithm, publicText, privateText, createdAt, status⟩ := record
  cases status with
  | active => simp [isActive] at h
  | retired => rfl

/-- A record that does not sign does not change any more. -/
theorem Ages.eq_of_not_active {earlier later : Record} (h : earlier.Ages later)
    (hretired : earlier.isActive = false) : later = earlier := by
  rcases ages_iff.1 h with rfl | rfl
  · rfl
  · exact retired_eq_self hretired

end Record

namespace Store

/-- The ids of the records, in order. -/
def keyIds (store : Store) : List String := store.records.map Record.keyId

/-- The records that sign, in order. -/
def active (store : Store) : List Record := store.records.filter Record.isActive

/-- The ids are distinct, and at most one record is active. -/
structure IsOrderly (store : Store) : Prop where
  distinct : store.keyIds.Nodup
  atMostOne : store.active.length ≤ 1

variable {store : Store} {record stored : Record}

/-- The records that sign are stored and sign. -/
theorem mem_active : record ∈ store.active ↔ record ∈ store.records ∧ record.isActive = true :=
  List.mem_filter

/-- The id of a stored record is among the ids. -/
theorem keyId_mem (h : record ∈ store.records) : record.keyId ∈ store.keyIds :=
  List.mem_map_of_mem h

/-- Distinct ids tell the records apart. -/
theorem eq_of_keyId_eq (distinct : store.keyIds.Nodup) (hrecord : record ∈ store.records)
    (hstored : stored ∈ store.records) (h : record.keyId = stored.keyId) : record = stored :=
  List.inj_on_of_nodup_map distinct hrecord hstored h

/-! ## Writing -/

/-- A record with a new id is appended. -/
theorem records_put_of_not_mem (h : record.keyId ∉ store.keyIds) :
    (store.put record).records = store.records ++ [record] := by
  obtain ⟨records⟩ := store
  show putAmong record records = records ++ [record]
  induction records with
  | nil => rfl
  | cons first rest ih =>
      simp only [keyIds, List.map_cons, List.mem_cons, not_or] at h ih
      rw [putAmong, if_neg (Ne.symm h.1), ih h.2]
      rfl

/-- A record with a new id adds its id at the end. -/
theorem keyIds_put_of_not_mem (h : record.keyId ∉ store.keyIds) :
    (store.put record).keyIds = store.keyIds ++ [record.keyId] := by
  simp [keyIds, records_put_of_not_mem h]

/-- A record with a stored id changes no id. -/
theorem keyIds_put_of_mem (h : record.keyId ∈ store.keyIds) :
    (store.put record).keyIds = store.keyIds := by
  obtain ⟨records⟩ := store
  show (putAmong record records).map Record.keyId = records.map Record.keyId
  induction records with
  | nil => simp [keyIds] at h
  | cons first rest ih =>
      rw [putAmong]
      split
      · next hid => simp [hid]
      · next hid =>
          simp only [keyIds, List.map_cons, List.mem_cons] at h ih
          simp [ih (h.resolve_left (Ne.symm hid))]

/-- Writing keeps ids distinct. -/
theorem distinct_put (distinct : store.keyIds.Nodup) (record : Record) :
    (store.put record).keyIds.Nodup := by
  by_cases h : record.keyId ∈ store.keyIds
  · rwa [keyIds_put_of_mem h]
  · rw [keyIds_put_of_not_mem h]
    exact distinct.append (List.nodup_singleton _) (by simpa using h)

/-- Writing in place changes the record with the id and keeps the positions of all. -/
theorem records_put_of_mem (distinct : store.keyIds.Nodup) (h : record.keyId ∈ store.keyIds) :
    (store.put record).records =
      store.records.map fun stored ↦ if stored.keyId = record.keyId then record else stored := by
  obtain ⟨records⟩ := store
  show putAmong record records = _
  induction records with
  | nil => simp [keyIds] at h
  | cons first rest ih =>
      simp only [keyIds, List.map_cons, List.nodup_cons, List.mem_cons] at distinct h ih
      rw [putAmong, List.map_cons]
      split
      · next hid =>
          -- No later record has the id, so the map changes nothing after the first.
          have hrest : ∀ other ∈ rest, other.keyId ≠ record.keyId := by
            intro other hmem heq
            exact distinct.1 (hid ▸ heq ▸ List.mem_map_of_mem hmem)
          rw [List.map_congr_left (fun other hmem ↦ if_neg (hrest other hmem)), List.map_id']
      · next hid =>
          rw [ih distinct.2 (h.resolve_left (Ne.symm hid))]

/-- After a write the store holds the record that was written and, of the others, those with
another id. -/
theorem mem_put_iff (distinct : store.keyIds.Nodup) :
    stored ∈ (store.put record).records ↔
      stored = record ∨ stored ∈ store.records ∧ stored.keyId ≠ record.keyId := by
  by_cases h : record.keyId ∈ store.keyIds
  · rw [records_put_of_mem distinct h, List.mem_map]
    constructor
    · rintro ⟨other, hmem, rfl⟩
      split
      · exact .inl rfl
      · next hne => exact .inr ⟨hmem, hne⟩
    · rintro (rfl | ⟨hmem, hne⟩)
      · obtain ⟨replaced, hmem, hid⟩ := List.mem_map.1 h
        exact ⟨replaced, hmem, if_pos hid⟩
      · exact ⟨stored, hmem, if_neg hne⟩
  · rw [records_put_of_not_mem h, List.mem_append, List.mem_singleton, or_comm]
    refine or_congr_right ⟨fun hmem ↦ ⟨hmem, fun heq ↦ ?_⟩, And.left⟩
    exact h (heq ▸ keyId_mem hmem)

/-- What is written is stored. -/
theorem mem_put_self (distinct : store.keyIds.Nodup) (record : Record) :
    record ∈ (store.put record).records :=
  (mem_put_iff distinct).2 (.inl rfl)

/-- A new record is the last of the active ones if it signs. -/
theorem active_put_of_not_mem (h : record.keyId ∉ store.keyIds) :
    (store.put record).active = store.active ++ [record].filter Record.isActive := by
  rw [active, records_put_of_not_mem h, List.filter_append]
  rfl

/-- Writing a record that does not sign lets no other record sign. -/
theorem active_put_sublist (h : record.isActive = false) :
    (store.put record).active.Sublist store.active := by
  obtain ⟨records⟩ := store
  show ((putAmong record records).filter Record.isActive).Sublist
    (records.filter Record.isActive)
  induction records with
  | nil => simp [putAmong, h]
  | cons first rest ih =>
      rw [putAmong]
      split
      · rw [List.filter_cons_of_neg (by simp [h])]
        exact (List.sublist_cons_self _ _).filter _
      · rw [List.filter_cons, List.filter_cons]
        split
        · exact ih.cons_cons _
        · exact ih

/-! ## Retiring -/

/-- The store with its active keys retired in place. -/
def retireActive (store : Store) : Store :=
  ⟨store.records.map fun stored ↦ if stored.isActive then stored.retired else stored⟩

/-- Retiring the active keys changes no id. -/
@[simp]
theorem keyIds_retireActive (store : Store) : store.retireActive.keyIds = store.keyIds := by
  rw [keyIds, keyIds, retireActive, List.map_map]
  refine List.map_congr_left fun stored _ ↦ ?_
  rw [Function.comp_apply]
  split
  · exact stored.keyId_retired
  · rfl

/-- No key is active after the active ones are retired. -/
@[simp]
theorem active_retireActive (store : Store) : store.retireActive.active = [] := by
  rw [List.eq_nil_iff_forall_not_mem]
  intro record hrecord
  obtain ⟨hmem, hactive⟩ := mem_active.1 hrecord
  obtain ⟨stored, -, rfl⟩ := List.mem_map.1 hmem
  split at hactive
  · simp at hactive
  · contradiction

/-- Without an active key there is nothing to retire. -/
theorem retireActive_eq_self (h : store.active = []) : store.retireActive = store := by
  have hnone : ∀ stored ∈ store.records, ¬ stored.isActive = true := by
    intro stored hmem hactive
    have hin : stored ∈ store.active := mem_active.2 ⟨hmem, hactive⟩
    simp [h] at hin
  rw [retireActive, List.map_congr_left fun stored hmem ↦ if_neg (hnone stored hmem), List.map_id']

/-- Writing the retired copy of the only active key is retiring the active keys. -/
theorem put_retired_eq_retireActive (distinct : store.keyIds.Nodup) (h : store.active = [record]) :
    store.put record.retired = store.retireActive := by
  have hmem : record ∈ store.active := by simp [h]
  obtain ⟨hstored, hactive⟩ := mem_active.1 hmem
  have hid : record.retired.keyId ∈ store.keyIds := by
    rw [record.keyId_retired]
    exact keyId_mem hstored
  have hrecords : (store.put record.retired).records = store.retireActive.records := by
    rw [records_put_of_mem distinct hid]
    refine List.map_congr_left fun stored hin ↦ ?_
    -- The stored record with the id is the only one that is active.
    by_cases heq : stored.keyId = record.keyId
    · rw [eq_of_keyId_eq distinct hin hstored heq, if_pos record.keyId_retired.symm, if_pos hactive]
    · have hother : ¬ stored.isActive = true := by
        intro hboth
        have honly : stored ∈ store.active := mem_active.2 ⟨hin, hboth⟩
        rw [h, List.mem_singleton] at honly
        exact heq (congrArg Record.keyId honly)
      rw [if_neg (by rwa [record.keyId_retired]), if_neg hother]
  exact congrArg Store.mk hrecords

/-- Retiring the only active record leaves none. -/
theorem active_put_retired (distinct : store.keyIds.Nodup) (h : store.active = [record]) :
    (store.put record.retired).active = [] := by
  rw [put_retired_eq_retireActive distinct h, active_retireActive]

/-! ## Later stores -/

/-- The store holds the record, perhaps retired in the meantime. -/
def Holds (store : Store) (record : Record) : Prop := ∃ kept ∈ store.records, record.Ages kept

/-- The later store holds every record of the earlier one. -/
def Ages (earlier later : Store) : Prop := ∀ record ∈ earlier.records, later.Holds record

/-- A store holds what is stored. -/
theorem holds_of_mem (h : record ∈ store.records) : store.Holds record := ⟨record, h, .refl record⟩

/-- The id of a record that is held is among the ids. -/
theorem Holds.keyId_mem (h : store.Holds record) : record.keyId ∈ store.keyIds := by
  obtain ⟨kept, hmem, hages⟩ := h
  exact hages.keyId ▸ Store.keyId_mem hmem

/-- What does not sign is held unchanged. -/
theorem Holds.mem_of_not_active (h : store.Holds record) (hretired : record.isActive = false) :
    record ∈ store.records := by
  obtain ⟨kept, hmem, hages⟩ := h
  exact hages.eq_of_not_active hretired ▸ hmem

/-- A later store holds what an earlier one held. -/
theorem Holds.of_ages {later : Store} (h : store.Holds record) (hages : store.Ages later) :
    later.Holds record := by
  obtain ⟨kept, hmem, hkept⟩ := h
  obtain ⟨last, hlast, hlater⟩ := hages kept hmem
  exact ⟨last, hlast, hkept.trans hlater⟩

/-- A store holds its own records. -/
theorem Ages.refl (store : Store) : store.Ages store := fun _ ↦ holds_of_mem

/-- A store that is later than a later one is later. -/
theorem Ages.trans {first second third : Store} (h : first.Ages second)
    (hnext : second.Ages third) :
    first.Ages third :=
  fun record hmem ↦ (h record hmem).of_ages hnext

/-- Adding a record with a new id loses none. -/
theorem ages_put_of_not_mem (h : record.keyId ∉ store.keyIds) : store.Ages (store.put record) := by
  intro stored hmem
  refine holds_of_mem ?_
  rw [records_put_of_not_mem h]
  exact List.mem_append_left _ hmem

/-- Writing the retired copy of a record that the store holds, however old the copy is, retires
that record and changes nothing else. -/
theorem ages_put_retired (distinct : store.keyIds.Nodup) (h : store.Holds record) :
    store.Ages (store.put record.retired) := by
  obtain ⟨kept, hmem, hages⟩ := h
  intro stored hstored
  by_cases hid : stored.keyId = record.keyId
  · have heq : stored = kept :=
      eq_of_keyId_eq distinct hstored hmem (hid.trans hages.keyId.symm)
    refine ⟨record.retired, mem_put_self distinct _, ?_⟩
    rw [heq, ← hages.retired_eq]
    exact .retired kept
  · exact holds_of_mem ((mem_put_iff distinct).2 (.inr ⟨hstored, hid⟩))

namespace IsOrderly

/-- Writing a record that does not sign keeps a store orderly. -/
theorem put_retired (h : store.IsOrderly) (hretired : record.isActive = false) :
    (store.put record).IsOrderly :=
  ⟨distinct_put h.distinct record, Nat.le_trans (active_put_sublist hretired).length_le h.atMostOne⟩

/-- Adding a record to a store without an active one keeps it orderly. -/
theorem put_fresh (distinct : store.keyIds.Nodup) (hnone : store.active = [])
    (hfresh : record.keyId ∉ store.keyIds) : (store.put record).IsOrderly := by
  refine ⟨distinct_put distinct record, ?_⟩
  rw [active_put_of_not_mem hfresh, hnone, List.nil_append]
  exact List.length_filter_le _ _

/-- Removing records keeps a store orderly. -/
theorem remove (h : store.IsOrderly) (keyId : String) : (store.remove keyId).IsOrderly := by
  have hsub : (store.remove keyId).records.Sublist store.records := List.filter_sublist
  exact ⟨(hsub.map _).nodup h.distinct, Nat.le_trans (hsub.filter _).length_le h.atMostOne⟩

/-- Changing the time of a record keeps a store orderly. -/
theorem redate (h : store.IsOrderly) (keyId : String) (createdAt : Instant) :
    (store.redate keyId createdAt).IsOrderly := by
  have hids : (store.redate keyId createdAt).keyIds = store.keyIds := by
    simp only [keyIds, Store.redate, List.map_map]
    refine List.map_congr_left fun record _ ↦ ?_
    simp only [Function.comp_apply]
    split <;> rfl
  have hactive : (store.redate keyId createdAt).active.length = store.active.length := by
    simp only [active, Store.redate, List.filter_map, List.length_map]
    congr 2
    funext record
    simp only [Function.comp_apply]
    split <;> rfl
  exact ⟨hids ▸ h.distinct, hactive ▸ h.atMostOne⟩

end IsOrderly

end Store

end SigningKeys
