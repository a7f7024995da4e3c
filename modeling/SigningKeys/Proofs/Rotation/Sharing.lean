import Mathlib.Logic.Function.Basic
import SigningKeys.Proofs.Rotation.Calls

/-!
# Rotations that share a store

Any number of rotations on one store, whose calls alternate in any order. A rotation decides on what
its listing showed and writes later, when the store may be another one. `Shared.Consistent` relates
what each rotation has in hand to the store, and every call keeps it. The main statement,
`Shared.run_keeps_keys`, says that no record is ever lost or changed but for its retirement.

Rotations are numbered; a rotator that rotates several times does so under several numbers.
-/

namespace SigningKeys

/-- A store, the stage of each rotation on it, and what the last listing of each showed. -/
structure Shared where
  store : Store
  stage : Nat → Stage
  seen : Nat → List Record

/-- The next call of one of the rotations. -/
structure Turn where
  rotation : Nat
  conditions : Conditions
  fault : Option Error

namespace Shared

/-- No rotation has made a call yet. -/
def start (store : Store) : Shared := ⟨store, fun _ ↦ .listing, fun _ ↦ []⟩

section

variable (rotators : Nat → Rotator)

/-- Performs the next call of one rotation. -/
def after (shared : Shared) (turn : Turn) : Shared :=
  let stage := shared.stage turn.rotation
  let next := (rotators turn.rotation).step turn.conditions turn.fault shared.store stage
  { store := next.1
    stage := Function.update shared.stage turn.rotation next.2
    seen := Function.update shared.seen turn.rotation
      (match stage, turn.fault with
      | .listing, none => shared.store.records
      | _, _ => shared.seen turn.rotation) }

/-- Performs calls one after the other. -/
def run : Shared → List Turn → Shared
  | shared, [] => shared
  | shared, turn :: rest => run (shared.after rotators turn) rest

/-- The condition holds for every call, in the state in which it is made. -/
def Along (condition : Shared → Turn → Prop) : Shared → List Turn → Prop
  | _, [] => True
  | shared, turn :: rest =>
      condition shared turn ∧ Along condition (shared.after rotators turn) rest

/-- If the call draws an id for a new record, the id is neither stored nor that of a record that
another rotation has yet to write. -/
def DrawsFresh (shared : Shared) (turn : Turn) : Prop :=
  shared.stage turn.rotation = .listing → ∀ fresh,
    ((shared.after rotators turn).stage turn.rotation).pending? = some fresh →
      fresh.keyId ∉ shared.store.keyIds ∧
      ∀ other stored, (shared.stage other).pending? = some stored → stored.keyId ≠ fresh.keyId

end

variable {rotators : Nat → Rotator} {shared : Shared}

/-- The stage of the rotation that makes a call. -/
theorem stage_after_self (turn : Turn) :
    (shared.after rotators turn).stage turn.rotation =
      ((rotators turn.rotation).step turn.conditions turn.fault shared.store
        (shared.stage turn.rotation)).2 := by
  simp [after]

/-- The other rotations stay where they are. -/
theorem stage_after_of_ne {turn : Turn} {other : Nat} (h : other ≠ turn.rotation) :
    (shared.after rotators turn).stage other = shared.stage other := by
  simp [after, h]

/-- A rotation that has listed draws nothing more. -/
theorem drawsFresh_of_pending {turn : Turn}
    (h : (shared.stage turn.rotation).pending?.isSome = true) :
    shared.DrawsFresh rotators turn := by
  intro hlisting
  rw [hlisting] at h
  cases h

/-- It is enough that the id that the surroundings offer is neither stored nor pending. -/
theorem drawsFresh_of_keyId {turn : Turn}
    (hstored : turn.conditions.draw.keyId ∉ shared.store.keyIds)
    (hpending : ∀ other,
      (shared.stage other).pending?.map Record.keyId ≠ some turn.conditions.draw.keyId) :
    shared.DrawsFresh rotators turn := by
  intro hlisting fresh hfresh
  have hid : fresh.keyId = turn.conditions.draw.keyId := by
    rw [stage_after_self, hlisting] at hfresh
    exact Registry.keyId_of_issue (Rotator.issue_of_listing hfresh)
  rw [hid]
  refine ⟨hstored, fun other stored hother heq ↦ hpending other ?_⟩
  rw [hother, Option.map_some, heq]

/-- Rotations that make no call in a run stay where they are. -/
theorem stage_run_of_ne {turns : List Turn} {other : Nat}
    (h : ∀ turn ∈ turns, other ≠ turn.rotation) :
    (shared.run rotators turns).stage other = shared.stage other := by
  induction turns generalizing shared with
  | nil => rfl
  | cons turn rest ih =>
      rw [run, ih fun later hmem ↦ h later (List.mem_cons_of_mem _ hmem)]
      exact stage_after_of_ne (h turn List.mem_cons_self)

/-- While only one rotation has made calls, it is enough that the id that the surroundings offer is
neither stored nor the one that this rotation has yet to write. -/
theorem drawsFresh_run_start {store : Store} {turn : Turn} (first : Nat) (turns : List Turn)
    (honly : ∀ earlier ∈ turns, earlier.rotation = first)
    (hstored : turn.conditions.draw.keyId ∉ ((start store).run rotators turns).store.keyIds)
    (hpending : (((start store).run rotators turns).stage first).pending?.map Record.keyId ≠
      some turn.conditions.draw.keyId) :
    ((start store).run rotators turns).DrawsFresh rotators turn := by
  refine drawsFresh_of_keyId hstored fun other ↦ ?_
  by_cases hfirst : other = first
  · rw [hfirst]
    exact hpending
  · rw [stage_run_of_ne fun earlier hmem heq ↦ hfirst (heq.trans (honly earlier hmem))]
    simp [start, Stage.pending?]

/-- A condition on the calls of a run is one on its first and on its second part. -/
theorem along_append {condition : Shared → Turn → Prop} {first second : List Turn} :
    Along rotators condition shared (first ++ second) ↔
      Along rotators condition shared first ∧
        Along rotators condition (shared.run rotators first) second := by
  induction first generalizing shared with
  | nil => simp [Along, run]
  | cons turn rest ih => simp only [List.cons_append, Along, run, ih, and_assoc]

/-- A call has one of the effects that calls can have. -/
theorem after_advance (rotators : Nat → Rotator) (shared : Shared) (turn : Turn) :
    (rotators turn.rotation).Advance turn.conditions shared.store (shared.stage turn.rotation)
      (shared.after rotators turn).store ((shared.after rotators turn).stage turn.rotation) := by
  rw [stage_after_self]
  exact (rotators turn.rotation).step_advance turn.conditions turn.fault shared.store _

/-- What a rotation has seen after a call it had seen before, or was listed by the call. -/
theorem mem_seen_after {turn : Turn} {rotation : Nat} {record : Record}
    (h : record ∈ (shared.after rotators turn).seen rotation) :
    record ∈ shared.seen rotation ∨ record ∈ shared.store.records := by
  by_cases hself : rotation = turn.rotation
  · subst hself
    simp only [after, Function.update_self] at h
    split at h
    · exact .inr h
    · exact .inl h
  · simp only [after, Function.update_of_ne hself] at h
    exact .inl h

/-- What each rotation has in hand agrees with the store: a new id is not yet stored and belongs to
one rotation, and the key to retire, the keys that were listed and those that were written are held,
though they may be retired by now. -/
structure Consistent (shared : Shared) : Prop where
  distinct : shared.store.keyIds.Nodup
  pending : ∀ rotation fresh, (shared.stage rotation).pending? = some fresh →
    fresh.keyId ∉ shared.store.keyIds
  apart : ∀ rotation other fresh stored, rotation ≠ other →
    (shared.stage rotation).pending? = some fresh →
    (shared.stage other).pending? = some stored → fresh.keyId ≠ stored.keyId
  current : ∀ rotation current fresh, shared.stage rotation = .retiring current fresh →
    shared.store.Holds current
  stored : ∀ rotation record, (shared.stage rotation).stored? = some record →
    shared.store.Holds record
  seen : ∀ rotation, ∀ record ∈ shared.seen rotation, shared.store.Holds record

/-- Before the first call everything agrees. -/
theorem start_consistent {store : Store} (distinct : store.keyIds.Nodup) :
    (start store).Consistent where
  distinct := distinct
  pending := by simp [start, Stage.pending?]
  apart := by simp [start, Stage.pending?]
  current := by simp [start]
  stored := by simp [start, Stage.stored?]
  seen := by simp [start]

namespace Consistent

variable {turn : Turn}

/-- A call loses no record. -/
theorem ages_after (h : shared.Consistent) (rotators : Nat → Rotator) (turn : Turn) :
    shared.store.Ages (shared.after rotators turn).store :=
  (shared.after_advance rotators turn).ages h.distinct (h.current turn.rotation)
    (h.pending turn.rotation)

/-- A call adds no id but that of the record that its rotation had yet to write. -/
theorem mem_keyIds_after (h : shared.Consistent) {turn : Turn} {keyId : String}
    (hmem : keyId ∈ (shared.after rotators turn).store.keyIds) :
    keyId ∈ shared.store.keyIds ∨ ∃ fresh, (shared.stage turn.rotation).pending? = some fresh ∧
      ((shared.after rotators turn).stage turn.rotation).pending? = none ∧ fresh.keyId = keyId :=
  (shared.after_advance rotators turn).mem_keyIds (h.current turn.rotation)
    (h.pending turn.rotation) hmem

/-- A record that a rotation has yet to write after a call is one from before, or was drawn by the
call. -/
theorem pending_after (hdraw : shared.DrawsFresh rotators turn) {rotation : Nat} {fresh : Record}
    (hfresh : ((shared.after rotators turn).stage rotation).pending? = some fresh) :
    (shared.stage rotation).pending? = some fresh ∨
      rotation = turn.rotation ∧ fresh.keyId ∉ shared.store.keyIds ∧
        ∀ other stored, (shared.stage other).pending? = some stored →
          stored.keyId ≠ fresh.keyId := by
  by_cases hself : rotation = turn.rotation
  · subst hself
    by_cases hlisting : shared.stage turn.rotation = .listing
    · exact .inr ⟨rfl, hdraw hlisting fresh hfresh⟩
    · exact .inl ((shared.after_advance rotators turn).pending_of_pending hlisting hfresh)
  · rw [stage_after_of_ne hself] at hfresh
    exact .inl hfresh

/-- A key that a rotation is to retire after a call is held by the store. -/
theorem current_after (h : shared.Consistent) {rotation : Nat} {current fresh : Record}
    (hstage : (shared.after rotators turn).stage rotation = .retiring current fresh) :
    (shared.after rotators turn).store.Holds current := by
  by_cases hself : rotation = turn.rotation
  · subst hself
    have hadvance := shared.after_advance rotators turn
    rw [hstage] at hadvance
    obtain ⟨-, hstore, hactive⟩ := hadvance.of_retiring
    have hmem : current ∈ shared.store.active := by simp [hactive]
    rw [hstore]
    exact Store.holds_of_mem (Store.mem_active.1 hmem).1
  · rw [stage_after_of_ne hself] at hstage
    exact (h.current rotation current fresh hstage).of_ages (h.ages_after rotators turn)

/-- A record that a call gives back is stored as it was given back. -/
theorem mem_after_of_stored (distinct : shared.store.keyIds.Nodup) {rotation : Nat}
    {record : Record} (hearlier : (shared.stage rotation).stored? ≠ some record)
    (hstored : ((shared.after rotators turn).stage rotation).stored? = some record) :
    record ∈ (shared.after rotators turn).store.records := by
  by_cases hself : rotation = turn.rotation
  · subst hself
    exact (shared.after_advance rotators turn).mem_of_stored distinct hearlier hstored
  · rw [stage_after_of_ne hself] at hstored
    exact absurd hstored hearlier

/-- A record that a rotation has given back, before a call or by it, is held by the store. -/
theorem stored_after (h : shared.Consistent) {rotation : Nat} {record : Record}
    (hstored : ((shared.after rotators turn).stage rotation).stored? = some record) :
    (shared.after rotators turn).store.Holds record := by
  by_cases hearlier : (shared.stage rotation).stored? = some record
  · exact (h.stored rotation record hearlier).of_ages (h.ages_after rotators turn)
  · exact Store.holds_of_mem (mem_after_of_stored h.distinct hearlier hstored)

/-- A call keeps the agreement between the rotations and the store. -/
theorem after (h : shared.Consistent) (hdraw : shared.DrawsFresh rotators turn) :
    (shared.after rotators turn).Consistent where
  distinct := (shared.after_advance rotators turn).distinct h.distinct
  pending := by
    intro rotation fresh hfresh hmem
    rcases pending_after hdraw hfresh with hold | ⟨rfl, hnew, hapart⟩
    · rcases h.mem_keyIds_after hmem with hids | ⟨written, hpending, hnone, hid⟩
      · exact h.pending rotation fresh hold hids
      · -- What was written is no longer pending, and other rotations have other ids in hand.
        by_cases hself : rotation = turn.rotation
        · rw [hself, hnone] at hfresh
          cases hfresh
        · exact h.apart _ _ fresh written hself hold hpending hid.symm
    · rcases h.mem_keyIds_after hmem with hids | ⟨written, hpending, -, hid⟩
      · exact hnew hids
      · exact hapart _ written hpending hid
  apart := by
    intro rotation other fresh stored hne hfresh hstored
    rcases pending_after hdraw hfresh with hold | ⟨rfl, -, hapart⟩
    · rcases pending_after hdraw hstored with hother | ⟨rfl, -, hapart⟩
      · exact h.apart rotation other fresh stored hne hold hother
      · exact hapart rotation fresh hold
    · rcases pending_after hdraw hstored with hother | ⟨rfl, -, -⟩
      · exact (hapart other stored hother).symm
      · exact absurd rfl hne
  current := fun rotation current fresh ↦ h.current_after
  stored := fun rotation record ↦ h.stored_after
  seen := by
    intro rotation record hmem
    rcases mem_seen_after hmem with hseen | hstored
    · exact (h.seen rotation record hseen).of_ages (h.ages_after rotators turn)
    · exact h.ages_after rotators turn record hstored

/-- A run keeps the agreement between the rotations and the store, and loses no record. -/
theorem run {turns : List Turn} (h : shared.Consistent)
    (hdraw : Along rotators (DrawsFresh rotators) shared turns) :
    (shared.run rotators turns).Consistent ∧
      shared.store.Ages (shared.run rotators turns).store := by
  induction turns generalizing shared with
  | nil => exact ⟨h, .refl _⟩
  | cons turn rest ih =>
      obtain ⟨hlater, hages⟩ := ih (h.after hdraw.1) hdraw.2
      exact ⟨hlater, (h.ages_after rotators turn).trans hages⟩

end Consistent

/-- However the calls of several rotations alternate and whichever of them fail: a record that is
stored at some moment is stored at every later one, with nothing but its status changed, and that
only from active to retired; no two records share an id; and a record that a rotation gives back is
stored at that moment, and from then on as every record. -/
theorem run_keeps_keys {store : Store} {first second : List Turn}
    (distinct : store.keyIds.Nodup)
    (hdraw : Along rotators (DrawsFresh rotators) (start store) (first ++ second)) :
    let earlier := (start store).run rotators first
    let later := earlier.run rotators second
    (∀ record ∈ earlier.store.records, ∃ kept ∈ later.store.records, record.Ages kept) ∧
      later.store.keyIds.Nodup ∧
      (∀ rotation record, later.stage rotation = .finished (.ok (some record)) →
        ∃ kept ∈ later.store.records, record.Ages kept) ∧
      (∀ turn record, later.stage turn.rotation ≠ .finished (.ok (some record)) →
        (later.after rotators turn).stage turn.rotation = .finished (.ok (some record)) →
        record ∈ (later.after rotators turn).store.records) := by
  intro earlier later
  obtain ⟨hfirst, hsecond⟩ := along_append.1 hdraw
  obtain ⟨hearlier, -⟩ := (start_consistent distinct).run hfirst
  obtain ⟨hlater, hages⟩ := hearlier.run hsecond
  refine ⟨hages, hlater.distinct, ?_, ?_⟩
  · intro rotation record hfinished
    exact hlater.stored rotation record (Stage.stored?_eq_some_iff.2 hfinished)
  · intro turn record hopen hfinished
    exact Consistent.mem_after_of_stored hlater.distinct (mt Stage.stored?_eq_some_iff.1 hopen)
      (Stage.stored?_eq_some_iff.2 hfinished)

/-- Two rotations list the same overdue key, retire it one after the other, and write their new
keys: all three are kept. -/
theorem run_keeps_keys_overlapping :
    let store : Store := ⟨[.small]⟩
    let rotators : Nat → Rotator := fun _ ↦ .small
    let list : List Turn :=
      [⟨0, .small "first" 3600 (by decide), none⟩, ⟨1, .small "second" 3601 (by decide), none⟩]
    let write : List Turn := list ++ list
    store.keyIds.Nodup ∧
      Along rotators (DrawsFresh rotators) (start store) (list ++ write) ∧
      let earlier := (start store).run rotators list
      let later := earlier.run rotators write
      (∀ record ∈ earlier.store.records, ∃ kept ∈ later.store.records, record.Ages kept) ∧
        later.store.keyIds.Nodup ∧
        (∀ rotation record, later.stage rotation = .finished (.ok (some record)) →
          ∃ kept ∈ later.store.records, record.Ages kept) ∧
        (∀ turn record, later.stage turn.rotation ≠ .finished (.ok (some record)) →
          (later.after rotators turn).stage turn.rotation = .finished (.ok (some record)) →
          record ∈ (later.after rotators turn).store.records) := by
  intro store rotators list write
  have distinct : store.keyIds.Nodup := by decide
  have hdraw : Along rotators (DrawsFresh rotators) (start store) (list ++ write) := by
    refine ⟨drawsFresh_run_start 0 [] (by simp) (by decide) (by decide),
      drawsFresh_run_start 0 (list.take 1) (by decide) (by decide +kernel) (by decide +kernel), ?_⟩
    exact ⟨drawsFresh_of_pending (by decide +kernel), drawsFresh_of_pending (by decide +kernel),
      drawsFresh_of_pending (by decide +kernel), drawsFresh_of_pending (by decide +kernel), trivial⟩
  exact ⟨distinct, hdraw, run_keeps_keys distinct hdraw⟩

end Shared

end SigningKeys
