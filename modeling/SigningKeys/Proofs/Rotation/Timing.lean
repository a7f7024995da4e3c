import SigningKeys.Proofs.Rotation.Course
import SigningKeys.Proofs.Time.Addition

/-!
# Times of rotations

When the next rotation of a record comes, computed on dates and times of the day in numbers of
limited width (`Strategy.computeNextRotation`). The main statement, `Strategy.rotation_times_exact`,
says that the periods from one second to the longest one are those of a strategy, and that the end
of a period is always computed and is exact to the nanosecond (`Strategy.IsTimed`).
-/

namespace SigningKeys.Strategy

/-! ## Periods -/

/-- The strategy with the given period, which has to be in range and then to be a length of time. -/
def ofSecondsTested (seconds : Int) : Except Error Strategy := do
  let strategy ← ofSeconds seconds
  if isDuration seconds then pure strategy
  else
    .error (.configuration (.described
      ("rotation frequency of " ++ toString seconds ++ " seconds out of bounds")))

/-- A number of seconds is accepted as a period if it is in range and refused by its range if not.
The second test refuses nothing. -/
structure IsJudged (seconds : Int) : Prop where
  untested : ofSecondsTested seconds = ofSeconds seconds
  ok_iff : (∃ strategy, ofSeconds seconds = .ok strategy ∧ strategy.seconds = seconds) ↔
    1 ≤ seconds ∧ seconds ≤ maxRotationPeriod
  error_iff : ∀ error, ofSeconds seconds = .error error ↔
    ¬ (1 ≤ seconds ∧ seconds ≤ maxRotationPeriod) ∧ error = .configuration (.rotationPeriod seconds)

/-- A period in range is a length of time. -/
theorem isDuration_of_range {seconds : Int}
    (h : 1 ≤ seconds ∧ seconds ≤ maxRotationPeriod) : isDuration seconds := by
  have hle : seconds ≤ 3153600000 := h.2
  exact isDuration_iff.2 (by omega)

/-- Every number of seconds is accepted or refused by its range. -/
theorem isJudged (seconds : Int) : IsJudged seconds := by
  by_cases h : 1 ≤ seconds ∧ seconds ≤ maxRotationPeriod
  · have hok : ofSeconds seconds = .ok ⟨seconds, h.1, h.2⟩ := dif_pos h
    refine ⟨?_, iff_of_true ⟨_, hok, rfl⟩ h, fun error ↦ ?_⟩
    · rw [ofSecondsTested, hok]
      exact if_pos (isDuration_of_range h)
    · simp [hok, h]
  · have herror : ofSeconds seconds = .error (.configuration (.rotationPeriod seconds)) := dif_neg h
    refine ⟨?_, iff_of_false ?_ h, fun error ↦ ?_⟩
    · rw [ofSecondsTested, herror]
      rfl
    · simp [herror]
    · simp [herror, h, eq_comm]

/-! ## Ends of periods -/

/-- When a key stops being fresh enough to sign with that was made at the given instant, in the
steps in which it is computed. -/
def computeNextRotation (strategy : Strategy) (keyId : String) (start : SplitInstant) :
    Except Overflow (Except Error SplitInstant) := do
  match ← start.add strategy.seconds with
  | some next => pure (.ok next)
  | none => pure (.error (.configuration (.rotationTime keyId)))

/-- What is found for a period that begins at the given instant: it is what the computation gives,
which has a result; outside leap seconds it is the nanosecond at which the period ends, unless this
is past the last instant; the only error names the key; and it is later than the start. -/
structure IsTimed (strategy : Strategy) (keyId : String) (start : SplitInstant)
    (found : Except Error Instant) : Prop where
  computed : strategy.computeNextRotation keyId start = .ok (found.map Instant.split)
  exact : start.isLeap = false →
    start.nanoseconds + strategy.seconds * nanosPerSecond ≤ Instant.last.nanoseconds →
    ∃ next, found = .ok next ∧ next.isLeap = false ∧
      next.nanoseconds = start.nanoseconds + strategy.seconds * nanosPerSecond
  out_of_range : start.isLeap = false →
    Instant.last.nanoseconds < start.nanoseconds + strategy.seconds * nanosPerSecond →
    found = .error (.configuration (.rotationTime keyId))
  error_eq : ∀ error, found = .error error → error = .configuration (.rotationTime keyId)
  later : ∀ next, found = .ok next → start < next.split

variable {strategy : Strategy} {record : Record} {start : SplitInstant}

/-- The computation gives the next rotation of a record, from its time or from one in the leap
second after it. -/
theorem computeNextRotation_eq (h : start.IsSecondOf record.createdAt) (hproper : start.IsProper) :
    strategy.computeNextRotation record.keyId start =
      .ok ((strategy.nextRotation record).map Instant.split) := by
  have hduration := isDuration_of_range ⟨strategy.seconds_pos, strategy.seconds_le⟩
  rw [computeNextRotation, h.add_eq hproper strategy.seconds_pos hduration, Overflow.ok_bind,
    nextRotation]
  cases record.createdAt.shift? strategy.seconds <;> rfl

/-- The next rotation of a record is exact, from its time or from one in the leap second after
it. -/
theorem isTimed_of_isSecondOf (h : start.IsSecondOf record.createdAt) (hproper : start.IsProper) :
    strategy.IsTimed record.keyId start (strategy.nextRotation record) where
  computed := computeNextRotation_eq h hproper
  exact hleap hle := by
    obtain ⟨hnotLeap, hnanoseconds⟩ := h.nanoseconds_eq hleap
    rw [← hnanoseconds] at hle ⊢
    obtain ⟨next, hnext⟩ := (Instant.exists_shift?_iff hnotLeap strategy.seconds_pos).2 hle
    exact ⟨next, nextRotation_eq_ok_iff.2 hnext,
      Instant.isLeap_of_shift? strategy.seconds_pos hnext,
      Instant.nanoseconds_shift? hnotLeap strategy.seconds_pos hnext⟩
  out_of_range hleap hlt := by
    obtain ⟨hnotLeap, hnanoseconds⟩ := h.nanoseconds_eq hleap
    rw [← hnanoseconds, ← Int.not_le,
      ← Instant.exists_shift?_iff hnotLeap strategy.seconds_pos] at hlt
    exact nextRotation_eq_error_iff.2 ⟨by simpa [Option.eq_none_iff_forall_ne_some] using hlt, rfl⟩
  error_eq error herror := (nextRotation_eq_error_iff.1 herror).2
  later _ hnext := h.lt_of_shift? strategy.seconds_pos (nextRotation_eq_ok_iff.1 hnext)

/-- Exactly the periods in range are accepted, and whatever the strategy and the record, the next
rotation is computed without overflow, exact to the nanosecond and later than the record; and so it
is for every instant that has a date and a time of the day. -/
theorem rotation_times_exact :
    (∀ seconds, IsJudged seconds) ∧
      (∀ (strategy : Strategy) (record : Record),
        strategy.IsTimed record.keyId record.createdAt.split (strategy.nextRotation record)) ∧
      ∀ (strategy : Strategy) (keyId : String) (start : SplitInstant), start.IsProper →
        ∃ found, strategy.IsTimed keyId start found := by
  refine ⟨isJudged, fun strategy record ↦ ?_, fun strategy keyId start hproper ↦ ?_⟩
  · exact isTimed_of_isSecondOf record.createdAt.isSecondOf_split record.createdAt.isProper_split
  · obtain ⟨instant, hinstant⟩ := hproper.exists_isSecondOf
    -- Only the name of a record and its time matter.
    let record : Record := ⟨keyId, .ec, "", "", instant, .active⟩
    have hrecord : start.IsSecondOf record.createdAt := hinstant
    exact ⟨strategy.nextRotation record, isTimed_of_isSecondOf hrecord hproper⟩

/-- The longest period can end at the last instant, and no record made a nanosecond later has a next
rotation. From a leap second it ends later as well, even from one at midday, where no record can be
made. -/
theorem rotation_times_exact_at_limits :
    let longest : Strategy := ⟨maxRotationPeriod, by decide, by decide⟩
    let record (createdAt : Instant) : Record := ⟨"key", .ec, "", "", createdAt, .active⟩
    let leap : Instant := ⟨maxDay - 36500, 86399, 1999999999, by decide⟩
    let midday : SplitInstant := ⟨2016, 365, 43200, 1999999999⟩
    (∃ next,
        longest.nextRotation (record ⟨maxDay - 36500, 86399, 999999999, by decide⟩) = .ok next ∧
      next.nanoseconds = Instant.last.nanoseconds) ∧
    longest.nextRotation (record ⟨maxDay - 36499, 0, 0, by decide⟩) =
      .error (.configuration (.rotationTime "key")) ∧
    (∀ next, longest.nextRotation (record leap) = .ok next → leap < next) ∧
    ∃ found : Except Error Instant,
      longest.computeNextRotation "key" midday = .ok (found.map Instant.split) ∧
        ∀ next, found = .ok next → midday < next.split := by
  intro longest record leap midday
  obtain ⟨-, htimed, hproper⟩ := rotation_times_exact
  refine ⟨?_, ?_, fun next hnext ↦ ?_, ?_⟩
  · obtain ⟨next, hnext, -, hend⟩ :=
      (htimed longest (record ⟨maxDay - 36500, 86399, 999999999, by decide⟩)).exact rfl (by decide)
    exact ⟨next, hnext, hend.trans (by decide)⟩
  · exact (htimed longest (record ⟨maxDay - 36499, 0, 0, by decide⟩)).out_of_range rfl (by decide)
  · exact Instant.split_lt_split_iff.1 ((htimed longest (record leap)).later next hnext)
  · obtain ⟨found, hfound⟩ := hproper longest "key" midday (by decide)
    exact ⟨found, hfound.computed, hfound.later⟩

end SigningKeys.Strategy
