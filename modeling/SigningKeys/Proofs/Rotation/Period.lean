import SigningKeys.Proofs.Rotation.Course

/-!
# New keys a period apart

Rotations that follow one another, with one period and a clock that never goes back, make new keys
at least a period apart, whatever fails in between. The main statement, `Rotation.attempts_spaced`,
says so of every two of them (`Attempt.Spaced`). Read `Rotation.active_until_due` first: a key that
is the only active one stays so until its period ends.
-/

namespace SigningKeys

/-! ## The end of a period -/

/-- The nanosecond at which a period ends that begins at an instant. -/
def Strategy.periodEnd (strategy : Strategy) (start : Instant) : Int :=
  start.nanoseconds + strategy.seconds * nanosPerSecond

/-- An instant at which a period can begin: no leap second, and the period ends before the last
instant. -/
structure Strategy.CanStart (strategy : Strategy) (start : Instant) : Prop where
  notLeap : start.isLeap = false
  before_last : strategy.periodEnd start < Instant.last.nanoseconds

/-- The next rotation of a record whose period can begin is the end of its period. -/
theorem Strategy.CanStart.exists_nextRotation {strategy : Strategy} {record : Record}
    (h : strategy.CanStart record.createdAt) :
    ∃ next, strategy.nextRotation record = .ok next ∧ next.isLeap = false ∧
      next.nanoseconds = strategy.periodEnd record.createdAt := by
  obtain ⟨next, hshift⟩ :=
    (Instant.exists_shift?_iff h.notLeap strategy.seconds_pos).2 (Int.le_of_lt h.before_last)
  exact ⟨next, nextRotation_eq_ok_iff.2 hshift,
    Instant.isLeap_of_shift? strategy.seconds_pos hshift,
    Instant.nanoseconds_shift? h.notLeap strategy.seconds_pos hshift⟩

/-! ## The clock of rotations that follow one another -/

namespace Attempt

/-- The readings of the clock on which a rotation acts: the time at which it looks at the store, and
the time of the record that it gives back. -/
def readings (attempt : Attempt) : List Instant :=
  attempt.rotation.conditions.now ::
    (Stage.finished attempt.transcript.result).stored?.toList.map Record.createdAt

/-- If the earlier rotation gives back a record, then a record that the later one gives back is made
no sooner than a period afterwards; and if the later one looks at the store before that, and can
list it, then it gives back nothing and attempts no write. -/
def Spaced (strategy : Strategy) (earlier later : Attempt) : Prop :=
  ∀ first, earlier.transcript.result = .ok (some first) →
    (∀ second, later.transcript.result = .ok (some second) →
      strategy.periodEnd first.createdAt ≤ second.createdAt.nanoseconds) ∧
    (later.rotation.conditions.now.nanoseconds < strategy.periodEnd first.createdAt →
      later.rotation.faults.listing = none →
      later.transcript = ⟨later.store, [], .ok none⟩)

variable {attempt : Attempt} {record : Record}

/-- The time at which a rotation looks at the store is read. -/
theorem now_mem_readings (attempt : Attempt) :
    attempt.rotation.conditions.now ∈ attempt.readings := List.mem_cons_self

/-- The time of a record that is given back is read. -/
theorem createdAt_mem_readings (h : attempt.transcript.result = .ok (some record)) :
    record.createdAt ∈ attempt.readings := by
  simp [readings, h, Stage.stored?]

/-- A record that is given back is made no sooner than the rotation looks at the store, if the clock
does not go back during the rotation. -/
theorem now_le_createdAt (hclock : attempt.readings.Pairwise (· ≤ ·))
    (h : attempt.transcript.result = .ok (some record)) :
    attempt.rotation.conditions.now ≤ record.createdAt := by
  rw [readings, List.pairwise_cons] at hclock
  exact hclock.1 record.createdAt (by simp [h, Stage.stored?])

end Attempt

/-- The readings of the clock on which rotations act that follow one another, in order. -/
def readings (store : Store) (rotations : List Rotation) : List Instant :=
  (attempts store rotations).flatMap Attempt.readings

namespace Rotation

variable {rotation : Rotation} {rotations : List Rotation} {store : Store} {strategy : Strategy}
  {current : Record} {next : Instant}

/-! ## While a key is fresh -/

/-- While the only active key is fresh, a rotation gives back nothing and leaves the store alone,
unless it cannot list the store, which leaves the store alone as well. -/
theorem transcript_of_fresh (hactive : store.active = [current])
    (hnext : rotation.rotator.strategy.nextRotation current = .ok next)
    (hlt : rotation.conditions.now < next) :
    rotation.transcript store = ⟨store, [], .ok none⟩ ∨
      ∃ error, rotation.faults.listing = some error ∧
        rotation.transcript store = ⟨store, [], .error error⟩ := by
  have hfresh : rotation.rotator.strategy.HasFresh rotation.conditions.now store :=
    ⟨current, by simp [hactive], next, hnext, hlt⟩
  have hcourse := rotation.transcript_course store
  generalize rotation.transcript store = transcript at hcourse ⊢
  cases hcourse with
  | unlisted error hlisting => exact .inr ⟨error, hlisting, rfl⟩
  | kept => exact .inl rfl
  | several _ hlength => simp [hactive] at hlength
  | undated other _ hone hshift =>
      rw [hactive] at hone
      cases hone
      exact absurd hnext (Strategy.nextRotation_ne_ok hshift next)
  | unissued _ _ _ hdue | unopened _ _ _ hdue | opened _ _ hdue | unretired _ _ _ _ hdue
  | unpublished _ _ _ _ hdue | replaced _ _ _ hdue => exact absurd hfresh hdue.not_hasFresh

/-- A key that is the only active one is still so for every rotation that looks at the store before
its period ends, if the clock does not go back. -/
theorem active_until_due (hactive : store.active = [current])
    (hnext : strategy.nextRotation current = .ok next)
    (hstrategy : ∀ rotation ∈ rotations, rotation.rotator.strategy = strategy)
    (hclock : (attempts store rotations).Pairwise fun earlier later ↦
      earlier.rotation.conditions.now ≤ later.rotation.conditions.now) :
    ∀ attempt ∈ attempts store rotations,
      attempt.rotation.conditions.now < next → attempt.store.active = [current] := by
  induction rotations with
  | nil => simp [attempts]
  | cons rotation rest ih =>
      rw [attempts, List.pairwise_cons] at hclock
      intro attempt hmem hlt
      rw [attempts, List.mem_cons] at hmem
      rcases hmem with rfl | hmem
      · exact hactive
      · -- The first rotation looked at the store no later, so it found the key fresh as well.
        have hearly : rotation.conditions.now < next :=
          lt_of_le_of_lt (hclock.1 attempt hmem) hlt
        have hsame : (rotation.transcript store).store = store := by
          rw [← hstrategy rotation List.mem_cons_self] at hnext
          rcases transcript_of_fresh hactive hnext hearly with h | ⟨error, -, h⟩ <;> rw [h]
        rw [hsame] at hmem hclock
        exact ih (fun later hlater ↦ hstrategy later (List.mem_cons_of_mem rotation hlater))
          hclock.2 attempt hmem hlt

/-! ## New keys -/

/-- Two rotations are spaced if the later one still finds the new key of the earlier one when it
looks at the store before the period of that key ends. -/
theorem spaced_of_active {earlier later : Attempt}
    (hstrategy : later.rotation.rotator.strategy = strategy)
    (hearlier : ∀ t ∈ earlier.readings, strategy.CanStart t)
    (hlater : ∀ t ∈ later.readings, strategy.CanStart t)
    (hclock : later.readings.Pairwise (· ≤ ·))
    (hactive : ∀ first next, earlier.transcript.result = .ok (some first) →
      strategy.nextRotation first = .ok next →
      later.rotation.conditions.now < next → later.store.active = [first]) :
    earlier.Spaced strategy later := by
  intro first hfirst
  obtain ⟨next, hnext, hleap, hend⟩ :=
    (hearlier _ (Attempt.createdAt_mem_readings hfirst)).exists_nextRotation
  have hfresh : later.rotation.conditions.now < next →
      later.transcript = ⟨later.store, [], .ok none⟩ ∨
        ∃ error, later.rotation.faults.listing = some error ∧
          later.transcript = ⟨later.store, [], .error error⟩ :=
    fun hlt ↦ transcript_of_fresh (hactive first next hfirst hnext hlt) (hstrategy ▸ hnext) hlt
  rw [← hend]
  refine ⟨fun second hsecond ↦ ?_, fun hearly hlisting ↦ ?_⟩
  · have hdue : next ≤ later.rotation.conditions.now := by
      by_contra hlt
      rcases hfresh (not_le.1 hlt) with h | ⟨error, -, h⟩ <;> rw [h] at hsecond <;> cases hsecond
    have hsecondLeap := (hlater _ (Attempt.createdAt_mem_readings hsecond)).notLeap
    rw [← Instant.le_iff_nanoseconds_le hleap hsecondLeap]
    exact le_trans hdue (Attempt.now_le_createdAt hclock hsecond)
  · have hnowLeap := (hlater _ later.now_mem_readings).notLeap
    rw [← Instant.lt_iff_nanoseconds_lt hnowLeap hleap] at hearly
    rcases hfresh hearly with h | ⟨error, herror, -⟩
    · exact h
    · rw [hlisting] at herror
      cases herror

/-- Rotations that follow one another, with one period, new ids, and a clock that does not go back,
make new keys at least a period apart; in between, one that lists the store gives back nothing and
attempts no write. Any call may fail. -/
theorem attempts_spaced (distinct : store.keyIds.Nodup)
    (hstrategy : ∀ rotation ∈ rotations, rotation.rotator.strategy = strategy)
    (hdraw : ∀ attempt ∈ attempts store rotations, attempt.rotation.DrawsFresh attempt.store)
    (hclock : (readings store rotations).Pairwise (· ≤ ·))
    (hstart : ∀ t ∈ readings store rotations, strategy.CanStart t) :
    (attempts store rotations).Pairwise (Attempt.Spaced strategy) := by
  rw [readings, List.pairwise_flatMap] at hclock
  simp only [readings, List.mem_flatMap, forall_exists_index, and_imp] at hstart
  induction rotations generalizing store with
  | nil => exact .nil
  | cons rotation rest ih =>
      obtain ⟨hwithin, hbetween⟩ := hclock
      rw [attempts] at hdraw hwithin hbetween hstart ⊢
      rw [List.pairwise_cons] at hbetween ⊢
      have hrest : ∀ later ∈ rest, later.rotator.strategy = strategy :=
        fun later hmem ↦ hstrategy later (List.mem_cons_of_mem rotation hmem)
      have hnows : (attempts (rotation.transcript store).store rest).Pairwise fun earlier later ↦
          earlier.rotation.conditions.now ≤ later.rotation.conditions.now :=
        hbetween.2.imp fun {earlier later} h ↦
          h _ earlier.now_mem_readings _ later.now_mem_readings
      constructor
      · intro later hmem
        have hin := List.mem_cons_of_mem ⟨rotation, store⟩ hmem
        refine spaced_of_active (hrest _ (rotation_mem_of_mem_attempts hmem))
          (fun t ↦ hstart t _ List.mem_cons_self) (fun t ↦ hstart t later hin)
          (hwithin later hin) ?_
        intro first next hfirst hnext
        have hactive := active_of_stored distinct (hdraw _ List.mem_cons_self) hfirst
        exact active_until_due hactive hnext hrest hnows later hmem
      · exact ih (rotation.distinct_transcript distinct) hrest
          (fun attempt hmem ↦ hdraw attempt (List.mem_cons_of_mem _ hmem))
          ⟨fun attempt hmem ↦ hwithin attempt (List.mem_cons_of_mem _ hmem), hbetween.2⟩
          fun t attempt hmem ↦ hstart t attempt (List.mem_cons_of_mem _ hmem)

/-- A new key, an early rotation, one that fails between its writes, and a new key again. -/
theorem attempts_spaced_interrupted :
    let store : Store := ⟨[.small]⟩
    let rotations : List Rotation :=
      [⟨.small, .small "first" 3600 (by decide), none, none, none⟩,
        ⟨.small, .small "early" 5000 (by decide), none, none, none⟩,
        ⟨.small, .small "lost" 7200 (by decide), none, none, some (.general .severalActiveKeys)⟩,
        ⟨.small, .small "second" 7300 (by decide), none, none, none⟩]
    let strategy := Rotator.small.strategy
    store.keyIds.Nodup ∧ (∀ rotation ∈ rotations, rotation.rotator.strategy = strategy) ∧
      (∀ attempt ∈ attempts store rotations, attempt.rotation.DrawsFresh attempt.store) ∧
      (readings store rotations).Pairwise (· ≤ ·) ∧
      (∀ t ∈ readings store rotations, strategy.CanStart t) ∧
      (attempts store rotations).map (fun attempt ↦
        (Stage.finished attempt.transcript.result).stored?.map Record.keyId) =
          [some "first", none, none, some "second"] ∧
      (attempts store rotations).Pairwise (Attempt.Spaced strategy) := by
  intro store rotations strategy
  have distinct : store.keyIds.Nodup := by decide
  have hstrategy : ∀ rotation ∈ rotations, rotation.rotator.strategy = strategy := by
    simp [rotations, strategy]
  have hdraw : ∀ attempt ∈ attempts store rotations,
      attempt.rotation.DrawsFresh attempt.store := by
    have hids : ∀ attempt ∈ attempts store rotations,
        attempt.rotation.conditions.draw.keyId ∉ attempt.store.keyIds := by decide +kernel
    exact fun attempt hmem ↦ drawsFresh_of_keyId (hids attempt hmem)
  have hreadings : readings store rotations = [3600, 3600, 5000, 7200, 7300, 7300].map fun second ↦
      Instant.small (second % 86400) (Nat.mod_lt _ (by decide)) := by decide +kernel
  have hclock : (readings store rotations).Pairwise (· ≤ ·) := by
    rw [hreadings]
    decide +kernel
  have hstart : ∀ t ∈ readings store rotations, strategy.CanStart t := by
    have hordinary : ∀ t ∈ readings store rotations,
        t.isLeap = false ∧ strategy.periodEnd t < Instant.last.nanoseconds := by
      rw [hreadings]
      decide +kernel
    exact fun t hmem ↦ ⟨(hordinary t hmem).1, (hordinary t hmem).2⟩
  exact ⟨distinct, hstrategy, hdraw, hclock, hstart, by decide +kernel,
    attempts_spaced distinct hstrategy hdraw hclock hstart⟩

end Rotation

end SigningKeys
