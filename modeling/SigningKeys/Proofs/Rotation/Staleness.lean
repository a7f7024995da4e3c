import SigningKeys.Proofs.Rotation.Sharing

/-!
# Stale listings

When rotations that share a store leave it with more than one active key. A rotation writes its new
key on the strength of a listing that other rotations may have overtaken. The main statement,
`Shared.atMostOne_iff`, says that a store keeps at most one active key exactly as long as no
rotation writes while a key is active that its listing did not show;
`Shared.first_rotations_collide` is a run in which one does.
-/

namespace SigningKeys.Shared

/-- The call writes a new record although a record is active that the rotation has not seen. -/
def Overlooks (shared : Shared) (turn : Turn) : Prop :=
  (∃ fresh, shared.stage turn.rotation = .publishing fresh) ∧ turn.fault = none ∧
    ∃ record ∈ shared.store.active,
      record.keyId ∉ (shared.seen turn.rotation).map Record.keyId

/-- The states before, between and after the calls. -/
def states (rotators : Nat → Rotator) : Shared → List Turn → List Shared
  | shared, [] => [shared]
  | shared, turn :: rest => shared :: states rotators (shared.after rotators turn) rest

variable {rotators : Nat → Rotator} {shared : Shared} {turn : Turn}

/-- What a rotation does with the keys that it has seen: at most one of them was active, which is
the one that it retires, and before it writes the new key all of them are retired for good. -/
structure Informed (shared : Shared) : Prop where
  signs : ∀ rotation fresh, (shared.stage rotation).pending? = some fresh → fresh.isActive = true
  retiring : ∀ rotation current fresh, shared.stage rotation = .retiring current fresh →
    ∀ record ∈ shared.seen rotation, record.isActive = true → record = current
  publishing : ∀ rotation fresh, shared.stage rotation = .publishing fresh →
    ∀ record ∈ shared.seen rotation, record.retired ∈ shared.store.records

/-- Before the first call there is nothing to know. -/
theorem start_informed (store : Store) : (start store).Informed where
  signs := by simp [start, Stage.pending?]
  retiring := by simp [start]
  publishing := by simp [start]

/-- The other rotations have seen what they had. -/
theorem seen_after_of_ne {other : Nat} (h : other ≠ turn.rotation) :
    (shared.after rotators turn).seen other = shared.seen other := by
  simp [after, h]

/-- A rotation that goes on after a listing has seen the store. -/
theorem seen_after_listing (hlisting : shared.stage turn.rotation = .listing)
    {fresh : Record}
    (hfresh : ((shared.after rotators turn).stage turn.rotation).pending? = some fresh) :
    (shared.after rotators turn).seen turn.rotation = shared.store.records := by
  rw [stage_after_self, hlisting] at hfresh
  cases hfault : turn.fault with
  | none => simp [after, hlisting, hfault]
  | some error =>
      rw [hfault] at hfresh
      cases hfresh

/-- A rotation that has listed sees nothing more. -/
theorem seen_after_of_ne_listing (h : shared.stage turn.rotation ≠ .listing) :
    (shared.after rotators turn).seen turn.rotation = shared.seen turn.rotation := by
  simp only [after, Function.update_self]
  split
  · next hlisting _ => exact absurd hlisting h
  · rfl

namespace Informed

/-- A record that is yet to be written after a call signs. -/
theorem signs_after (h : shared.Informed) {rotation : Nat} {fresh : Record}
    (hfresh : ((shared.after rotators turn).stage rotation).pending? = some fresh) :
    fresh.isActive = true := by
  by_cases hself : rotation = turn.rotation
  · subst hself
    by_cases hlisting : shared.stage turn.rotation = .listing
    · rw [stage_after_self, hlisting] at hfresh
      exact Registry.isActive_of_issue (Rotator.issue_of_listing hfresh)
    · exact h.signs turn.rotation fresh
        ((shared.after_advance rotators turn).pending_of_pending hlisting hfresh)
  · rw [stage_after_of_ne hself] at hfresh
    exact h.signs rotation fresh hfresh

/-- After a call, a rotation that is about to retire a key has seen no other active one. -/
theorem retiring_after (h : shared.Informed) {rotation : Nat} {current fresh record : Record}
    (hstage : (shared.after rotators turn).stage rotation = .retiring current fresh)
    (hmem : record ∈ (shared.after rotators turn).seen rotation)
    (hactive : record.isActive = true) : record = current := by
  by_cases hself : rotation = turn.rotation
  · subst hself
    have hadvance := shared.after_advance rotators turn
    rw [hstage] at hadvance
    obtain ⟨hlisting, -, hone⟩ := hadvance.of_retiring
    rw [seen_after_listing hlisting (by rw [hstage]; rfl)] at hmem
    have hin : record ∈ shared.store.active := Store.mem_active.2 ⟨hmem, hactive⟩
    simpa [hone] using hin
  · rw [stage_after_of_ne hself] at hstage
    rw [seen_after_of_ne hself] at hmem
    exact h.retiring rotation current fresh hstage record hmem hactive

/-- After a call, a rotation that is about to write its new key has seen no key that is not retired
by now. -/
theorem publishing_after (h : shared.Informed) (hconsistent : shared.Consistent) {rotation : Nat}
    {fresh record : Record}
    (hstage : (shared.after rotators turn).stage rotation = .publishing fresh)
    (hmem : record ∈ (shared.after rotators turn).seen rotation) :
    record.retired ∈ (shared.after rotators turn).store.records := by
  have hages := hconsistent.ages_after rotators turn
  by_cases hself : rotation = turn.rotation
  · subst hself
    have hadvance := shared.after_advance rotators turn
    rw [hstage] at hadvance
    rcases hadvance.of_publishing with ⟨hlisting, hstore, hnone⟩ | ⟨current, hretiring, hstore⟩
    · rw [seen_after_listing hlisting (by rw [hstage]; rfl)] at hmem
      have hretired : record.isActive = false := by
        by_contra hactive
        have hin : record ∈ shared.store.active := Store.mem_active.2 ⟨hmem, by simpa using hactive⟩
        simp [hnone] at hin
      rwa [Record.retired_eq_self hretired, hstore]
    · rw [seen_after_of_ne_listing (by simp [hretiring])] at hmem
      by_cases hactive : record.isActive = true
      · rw [h.retiring _ current fresh hretiring record hmem hactive, hstore]
        exact Store.mem_put_self hconsistent.distinct _
      · have hretired : record.isActive = false := by simpa using hactive
        rw [Record.retired_eq_self hretired]
        exact ((hconsistent.seen _ record hmem).of_ages hages).mem_of_not_active hretired
  · rw [stage_after_of_ne hself] at hstage
    rw [seen_after_of_ne hself] at hmem
    exact (hages _ (h.publishing rotation fresh hstage record hmem)).mem_of_not_active rfl

/-- A call keeps what the rotations know. -/
theorem after (h : shared.Informed) (hconsistent : shared.Consistent) :
    (shared.after rotators turn).Informed where
  signs := fun _ _ ↦ h.signs_after
  retiring := fun _ _ _ hstage _ ↦ h.retiring_after hstage
  publishing := fun _ _ hstage _ ↦ h.publishing_after hconsistent hstage

/-- A rotation that writes its new key finds no active one, unless it overlooks one. -/
theorem active_eq_nil (h : shared.Informed) (distinct : shared.store.keyIds.Nodup)
    {fresh : Record} (hstage : shared.stage turn.rotation = .publishing fresh)
    (hfault : turn.fault = none) (hsees : ¬ shared.Overlooks turn) : shared.store.active = [] := by
  rw [List.eq_nil_iff_forall_not_mem]
  intro record hmem
  have hseen : record.keyId ∈ (shared.seen turn.rotation).map Record.keyId := by
    by_contra hunseen
    exact hsees ⟨⟨fresh, hstage⟩, hfault, record, hmem, hunseen⟩
  obtain ⟨known, hknown, hid⟩ := List.mem_map.1 hseen
  have hretired := h.publishing turn.rotation fresh hstage known hknown
  obtain ⟨hstored, hactive⟩ := Store.mem_active.1 hmem
  have heq : record = known.retired := Store.eq_of_keyId_eq distinct hstored hretired hid.symm
  rw [heq] at hactive
  simp at hactive

end Informed

/-- A call that writes no new record adds no active one. -/
theorem length_active_after_le
    (hwrites : ∀ fresh, shared.stage turn.rotation = .publishing fresh → turn.fault ≠ none) :
    (shared.after rotators turn).store.active.length ≤ shared.store.active.length := by
  cases hfault : turn.fault with
  | some error =>
      have hstore : (shared.after rotators turn).store = shared.store := by
        cases hstage : shared.stage turn.rotation <;> simp [after, Rotator.step, hstage, hfault]
      exact Nat.le_of_eq (by rw [hstore])
  | none =>
      cases hstage : shared.stage turn.rotation with
      | publishing fresh => exact absurd hfault (hwrites fresh hstage)
      | retiring current fresh =>
          have hstore : (shared.after rotators turn).store = shared.store.put current.retired := by
            simp [after, Rotator.step, hstage, hfault]
          rw [hstore]
          exact (Store.active_put_sublist current.isActive_retired).length_le
      | listing | finished =>
          have hstore : (shared.after rotators turn).store = shared.store := by
            simp [after, Rotator.step, hstage, hfault]
          exact Nat.le_of_eq (by rw [hstore])

/-- A call that writes a new record adds one active record. -/
theorem active_after_publishing (hconsistent : shared.Consistent) (hinformed : shared.Informed)
    {fresh : Record} (hstage : shared.stage turn.rotation = .publishing fresh)
    (hfault : turn.fault = none) :
    (shared.after rotators turn).store.active = shared.store.active ++ [fresh] := by
  have hpending : (shared.stage turn.rotation).pending? = some fresh := by rw [hstage]; rfl
  have hstore : (shared.after rotators turn).store = shared.store.put fresh := by
    simp [after, Rotator.step, hstage, hfault]
  rw [hstore, Store.active_put_of_not_mem (hconsistent.pending _ fresh hpending),
    List.filter_cons_of_pos (hinformed.signs _ fresh hpending), List.filter_nil]

/-- One call leaves at most one active key exactly if it does not overlook one. -/
theorem Consistent.atMostOne_after_iff (hconsistent : shared.Consistent)
    (rotators : Nat → Rotator) (turn : Turn) (hinformed : shared.Informed)
    (hone : shared.store.active.length ≤ 1) :
    (shared.after rotators turn).store.active.length ≤ 1 ↔ ¬ shared.Overlooks turn := by
  -- Only a call that writes a new record can add an active one, or overlook one.
  by_cases hwrites : ∃ fresh, shared.stage turn.rotation = .publishing fresh ∧ turn.fault = none
  · obtain ⟨fresh, hstage, hfault⟩ := hwrites
    rw [active_after_publishing hconsistent hinformed hstage hfault]
    constructor
    · rintro hlength ⟨-, -, record, hmem, -⟩
      have hpos := List.length_pos_of_mem hmem
      rw [List.length_append, List.length_singleton] at hlength
      omega
    · intro hsees
      rw [hinformed.active_eq_nil hconsistent.distinct hstage hfault hsees]
      simp
  · refine iff_of_true ?_ ?_
    · refine Nat.le_trans (length_active_after_le fun fresh hstage hfault ↦ ?_) hone
      exact hwrites ⟨fresh, hstage, hfault⟩
    · rintro ⟨⟨fresh, hstage⟩, hfault, -⟩
      exact hwrites ⟨fresh, hstage, hfault⟩

/-- From a state that everything agrees with, the store has at most one active key throughout
exactly if no call overlooks one. -/
theorem states_atMostOne_iff {turns : List Turn} (hconsistent : shared.Consistent)
    (hinformed : shared.Informed) (hone : shared.store.active.length ≤ 1)
    (hdraw : Along rotators (DrawsFresh rotators) shared turns) :
    (∀ state ∈ shared.states rotators turns, state.store.active.length ≤ 1) ↔
      Along rotators (fun state turn ↦ ¬ state.Overlooks turn) shared turns := by
  induction turns generalizing shared with
  | nil => simpa [states, Along] using hone
  | cons turn rest ih =>
      have hturn := hconsistent.atMostOne_after_iff rotators turn hinformed hone
      have hfirst : shared.after rotators turn ∈
          (shared.after rotators turn).states rotators rest := by
        cases rest <;> simp [states]
      simp only [states, List.mem_cons, forall_eq_or_imp, hone, true_and, Along]
      constructor
      · intro hall
        have hnext := hall _ hfirst
        exact ⟨hturn.1 hnext,
          (ih (hconsistent.after hdraw.1) (hinformed.after hconsistent) hnext hdraw.2).1 hall⟩
      · rintro ⟨hsees, hrest⟩
        exact (ih (hconsistent.after hdraw.1) (hinformed.after hconsistent) (hturn.2 hsees)
          hdraw.2).2 hrest

/-- However the calls of several rotations alternate and whichever of them fail, a store with
distinct ids and at most one active key has at most one active key at every moment exactly if no
rotation writes a new key while a key is active that its own listing did not show. -/
theorem atMostOne_iff {store : Store} {turns : List Turn} (distinct : store.keyIds.Nodup)
    (atMostOne : store.active.length ≤ 1)
    (hdraw : Along rotators (DrawsFresh rotators) (start store) turns) :
    (∀ state ∈ (start store).states rotators turns, state.store.active.length ≤ 1) ↔
      Along rotators (fun state turn ↦ ¬ state.Overlooks turn) (start store) turns :=
  states_atMostOne_iff (start_consistent distinct) (start_informed store) atMostOne hdraw

/-- A second rotation lists between the two writes of a first one and then fails to write its own
key: the first overlooks no key, and there is never more than one active. -/
theorem atMostOne_iff_interrupted :
    let store : Store := ⟨[.small]⟩
    let rotators : Nat → Rotator := fun _ ↦ .small
    let first (fault : Option Error) : Turn := ⟨0, .small "first" 3600 (by decide), fault⟩
    let second (fault : Option Error) : Turn := ⟨1, .small "second" 3601 (by decide), fault⟩
    let turns := [first none, first none, second none, first none,
      second (some (.general .severalActiveKeys))]
    store.keyIds.Nodup ∧ store.active.length ≤ 1 ∧
      Along rotators (DrawsFresh rotators) (start store) turns ∧
      ((∀ state ∈ (start store).states rotators turns, state.store.active.length ≤ 1) ↔
        Along rotators (fun state turn ↦ ¬ state.Overlooks turn) (start store) turns) := by
  intro store rotators first second turns
  have distinct : store.keyIds.Nodup := by decide
  have atMostOne : store.active.length ≤ 1 := by decide
  have hdraw : Along rotators (DrawsFresh rotators) (start store) turns := by
    refine ⟨drawsFresh_run_start 0 [] (by simp) (by decide) (by decide),
      drawsFresh_of_pending (by decide +kernel), ?_⟩
    exact ⟨drawsFresh_run_start 0 (turns.take 2) (by decide) (by decide +kernel)
        (by decide +kernel),
      drawsFresh_of_pending (by decide +kernel), drawsFresh_of_pending (by decide +kernel), trivial⟩
  exact ⟨distinct, atMostOne, hdraw, atMostOne_iff distinct atMostOne hdraw⟩

/-- Two rotations list the empty store before either writes, every call succeeds and every id is
new, and two keys are active in the end. -/
theorem first_rotations_collide :
    let store : Store := ⟨[]⟩
    let rotators : Nat → Rotator := fun _ ↦ .small
    let first : Turn := ⟨0, .small "first" 0 (by decide), none⟩
    let second : Turn := ⟨1, .small "second" 1 (by decide), none⟩
    let turns := [first, second, first, second]
    store.keyIds.Nodup ∧ store.active.length ≤ 1 ∧
      Along rotators (DrawsFresh rotators) (start store) turns ∧
      (∀ turn ∈ turns, turn.fault = none) ∧
      ¬ ∀ state ∈ (start store).states rotators turns, state.store.active.length ≤ 1 := by
  intro store rotators first second turns
  refine ⟨by decide, by decide, ?_, by simp [turns, first, second], ?_⟩
  · refine ⟨drawsFresh_run_start 0 [] (by simp) (by decide) (by decide),
      drawsFresh_run_start 0 (turns.take 1) (by decide) (by decide +kernel) (by decide +kernel), ?_⟩
    exact ⟨drawsFresh_of_pending (by decide +kernel), drawsFresh_of_pending (by decide +kernel),
      trivial⟩
  · intro hall
    have hlast := hall ((start store).run rotators turns) (by simp [states, run, turns])
    have hlength : ((start store).run rotators turns).store.active.length = 2 := by decide +kernel
    omega

end SigningKeys.Shared
