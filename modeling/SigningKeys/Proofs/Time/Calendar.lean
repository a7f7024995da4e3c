import SigningKeys.Time.Calendar

/-!
# Days and dates

Every day has a date, and the number of that date is the day (`Date.dayNumber_ofDayNumber`). The
year of a day is found through cycles of 400, 100, 4 and 1 years, of which the last one of a cycle
is a day longer or shorter than the others (`Date.yearOfDay_spec`), and there is no other year in
which the day lies (`Date.yearOfDay_eq`).
-/

namespace SigningKeys.Date

/-! ## Years -/

section Cycles

variable {era : Int} {century quad single : Nat} (hcentury : century < 4) (hquad : quad < 25)
  (hsingle : single < 4)

include hcentury hquad hsingle

/-- The days before a year by its place in the cycles. -/
theorem daysBeforeYear_cycles :
    daysBeforeYear (400 * era + (100 * century + 4 * quad + single : Nat) + 1) =
      146097 * era + (36524 * century + 1461 * quad + 365 * single : Nat) := by
  unfold daysBeforeYear
  omega

/-- A year is a leap year if it is the last one of four, unless it is the last one of a hundred, but
not of four hundred. -/
theorem isLeapYear_cycles :
    isLeapYear (400 * era + (100 * century + 4 * quad + single : Nat) + 1) =
      decide (single = 3 ∧ (quad ≠ 24 ∨ century = 3)) := by
  rw [Bool.eq_iff_iff, decide_eq_true_iff]
  simp only [isLeapYear, Bool.and_eq_true, Bool.or_eq_true, beq_iff_eq, bne_iff_ne]
  omega

end Cycles

/-- A day lies in its year: as many days after the first one as are said, which are fewer than the
year has. -/
theorem yearOfDay_spec (day : Int) :
    daysBeforeYear (yearOfDay day).1 + (yearOfDay day).2 = day ∧
      (yearOfDay day).2 < daysBeforeMonth (isLeapYear (yearOfDay day).1) 12 := by
  obtain ⟨days, hdays, hlt⟩ : ∃ days : Nat, (day % 146097).toNat = days ∧ days < 146097 :=
    ⟨_, rfl, by omega⟩
  -- The last century, and the last year of four, may be a day longer, so its number is capped.
  obtain ⟨century, hcentury⟩ : ∃ century, min 3 (days / 36524) = century := ⟨_, rfl⟩
  obtain ⟨quad, hquad⟩ : ∃ quad, (days - century * 36524) / 1461 = quad := ⟨_, rfl⟩
  obtain ⟨single, hsingle⟩ :
      ∃ single, min 3 ((days - century * 36524 - quad * 1461) / 365) = single := ⟨_, rfl⟩
  have hyear : yearOfDay day =
      (400 * (day / 146097) + (100 * century + 4 * quad + single : Nat) + 1,
        days - century * 36524 - quad * 1461 - single * 365) := by
    simp only [yearOfDay, hdays, hcentury, hquad, hsingle]
  have hcenturyLt : century < 4 := by omega
  have hquadLt : quad < 25 := by omega
  have hsingleLt : single < 4 := by omega
  rw [hyear]
  simp only [daysBeforeYear_cycles hcenturyLt hquadLt hsingleLt,
    isLeapYear_cycles hcenturyLt hquadLt hsingleLt]
  constructor
  · omega
  · show _ < 365 +
      if decide (single = 3 ∧ (quad ≠ 24 ∨ century = 3)) && decide (2 ≤ 12) then 1 else 0
    simp only [Bool.and_eq_true, decide_eq_true_eq]
    split <;> omega

/-- How many days a year has. -/
def daysInYear (year : Int) : Nat := daysBeforeMonth (isLeapYear year) 12

/-- A year has 365 days, or one more if it is a leap year. -/
theorem daysInYear_eq (year : Int) :
    daysInYear year = 365 + if isLeapYear year then 1 else 0 := by
  unfold daysInYear
  cases isLeapYear year <;> rfl

/-- A year begins after all days of the year before it. -/
theorem daysBeforeYear_succ (year : Int) :
    daysBeforeYear (year + 1) = daysBeforeYear year + daysInYear year := by
  have hleap : isLeapYear year = true ↔ year % 4 = 0 ∧ (year % 100 ≠ 0 ∨ year % 400 = 0) := by
    simp [isLeapYear]
  rw [daysInYear_eq]
  unfold daysBeforeYear
  split
  · next h =>
      rw [hleap] at h
      omega
  · next h =>
      rw [hleap] at h
      omega

/-- A later year begins no earlier. -/
theorem daysBeforeYear_le {year later : Int} (h : year ≤ later) :
    daysBeforeYear year ≤ daysBeforeYear later := by
  unfold daysBeforeYear
  omega

/-- A day lies in no other year than the one whose days it is among. -/
theorem yearOfDay_eq {year day : Int} {dayOfYear : Nat}
    (hday : daysBeforeYear year + dayOfYear = day) (hlt : dayOfYear < daysInYear year) :
    yearOfDay day = (year, dayOfYear) := by
  obtain ⟨hfound, hfoundLt⟩ := yearOfDay_spec day
  generalize yearOfDay day = found at hfound hfoundLt ⊢
  obtain ⟨foundYear, foundDay⟩ := found
  simp only at hfound hfoundLt
  have hnext := daysBeforeYear_succ year
  have hfoundNext := daysBeforeYear_succ foundYear
  rw [daysInYear] at hfoundNext
  obtain rfl : foundYear = year := by
    rcases Int.lt_trichotomy foundYear year with hless | heq | hmore
    · have hle := daysBeforeYear_le (show foundYear + 1 ≤ year by omega)
      omega
    · exact heq
    · have hle := daysBeforeYear_le (show year + 1 ≤ foundYear by omega)
      omega
  rw [show foundDay = dayOfYear by omega]

/-! ## Months -/

/-- Among the months before a day, the last one that has begun. -/
theorem monthsPassed_spec {leap : Bool} {dayOfYear months : Nat}
    (h : dayOfYear < daysBeforeMonth leap (months + 1)) :
    monthsPassed leap dayOfYear months ≤ months ∧
      daysBeforeMonth leap (monthsPassed leap dayOfYear months) ≤ dayOfYear ∧
      dayOfYear < daysBeforeMonth leap (monthsPassed leap dayOfYear months + 1) := by
  induction months with
  | zero =>
      have hstart : daysBeforeMonth leap 0 = 0 := by cases leap <;> rfl
      exact ⟨Nat.le_refl 0, by rw [monthsPassed, hstart]; exact Nat.zero_le _, h⟩
  | succ months ih =>
      rw [monthsPassed]
      split
      · next hbegun => exact ⟨Nat.le_refl _, hbegun, h⟩
      · next hbefore =>
          obtain ⟨hle, hbegun, hnext⟩ := ih (Nat.lt_of_not_le hbefore)
          exact ⟨Nat.le_succ_of_le hle, hbegun, hnext⟩

/-- A month has at most 31 days. -/
theorem daysInMonth_le (year : Int) {month : Nat} (h : month ≤ 12) :
    daysInMonth year month ≤ 31 := by
  have htable : ∀ leap, ∀ month ≤ 12,
      daysBeforeMonth leap month - daysBeforeMonth leap (month - 1) ≤ 31 := by decide
  exact htable (isLeapYear year) month h

/-! ## Dates -/

/-- The parts of the date of a day. -/
theorem ofDayNumber_eq (day : Int) :
    ofDayNumber day =
      let passed := monthsPassed (isLeapYear (yearOfDay day).1) (yearOfDay day).2 11
      ⟨(yearOfDay day).1, passed + 1,
        (yearOfDay day).2 - daysBeforeMonth (isLeapYear (yearOfDay day).1) passed + 1⟩ := rfl

/-- Every day has a date of the calendar, and is the day of this date. -/
theorem dayNumber_ofDayNumber (day : Int) :
    (ofDayNumber day).IsValid ∧ (ofDayNumber day).dayNumber = day := by
  obtain ⟨hday, hlt⟩ := yearOfDay_spec day
  rw [ofDayNumber_eq]
  generalize yearOfDay day = found at hday hlt ⊢
  obtain ⟨year, dayOfYear⟩ := found
  obtain ⟨hle, hbegun, hnext⟩ := monthsPassed_spec hlt
  simp only at hle hbegun hnext hday ⊢
  generalize monthsPassed (isLeapYear year) dayOfYear 11 = passed at hle hbegun hnext ⊢
  constructor
  · refine ⟨?_, ?_, ?_, ?_⟩
    · show 1 ≤ passed + 1
      omega
    · show passed + 1 ≤ 12
      omega
    · show 1 ≤ dayOfYear - _ + 1
      omega
    · show dayOfYear - daysBeforeMonth (isLeapYear year) passed + 1 ≤
        daysBeforeMonth (isLeapYear year) (passed + 1) - daysBeforeMonth (isLeapYear year) passed
      omega
  · show daysBeforeYear year + (daysBeforeMonth (isLeapYear year) passed +
      (dayOfYear - daysBeforeMonth (isLeapYear year) passed + 1 - 1) : Nat) = day
    omega

end SigningKeys.Date
