import SigningKeys.Number.Word
import SigningKeys.Proofs.Time.Calendar
import SigningKeys.Proofs.Time.Instant

/-!
# Adding seconds to a date and a time of the day

An instant can be kept as a year, a day of the year, a second of the day and nanoseconds
(`Instant.split`). Seconds are then added in numbers of limited width (`SplitInstant.add`): whole
days are carried from the time of the day to the date, and from the day of the year to the year,
through cycles of 400 years and a table of their leap years. No step of this is without a result
(`SplitInstant.add_eq`), and the sum is that of `Instant.shift?`, which numbers the days without
regard to years (`SplitInstant.IsSecondOf.add_eq`).
-/

namespace SigningKeys

/-! ## Numbers of limited width -/

/-- Why a step of a computation has no result. -/
inductive Overflow where
  /-- A number does not fit into 64 bits with a sign. -/
  | wide
  /-- A number does not fit into 32 bits with a sign. -/
  | narrow
  /-- A number does not fit into 32 bits without a sign. -/
  | unsigned
  /-- A table has no such entry. -/
  | noEntry
  deriving DecidableEq

/-- A step that has a result is followed by the next one. -/
theorem Overflow.ok_bind {α β : Type} (value : α) (next : α → Except Overflow β) :
    (Except.ok value >>= next) = next value := rfl

namespace Word

/-- The integer fits into 32 bits with a sign. -/
def isNarrow (n : Int) : Bool := -0x80000000 ≤ n && n < 0x80000000

/-- The result of a step, in 64 bits with a sign. -/
def wide (n : Int) : Except Overflow Int := if isSigned n then .ok n else .error .wide

/-- The result of a step, in 32 bits with a sign. -/
def narrow (n : Int) : Except Overflow Int := if isNarrow n then .ok n else .error .narrow

/-- The result of a step, in 32 bits without a sign. -/
def unsigned (n : Int) : Except Overflow Nat :=
  if 0 ≤ n ∧ n < 0x100000000 then .ok n.toNat else .error .unsigned

/-- The bounds of numbers of 64 bits. -/
theorem isSigned_iff {n : Int} :
    isSigned n = true ↔ -0x8000000000000000 ≤ n ∧ n < 0x8000000000000000 := by
  simp [isSigned]

/-- The bounds of numbers of 32 bits. -/
theorem isNarrow_iff {n : Int} : isNarrow n = true ↔ -0x80000000 ≤ n ∧ n < 0x80000000 := by
  simp [isNarrow]

/-- A step within the bounds of 64 bits has a result. -/
theorem wide_eq {n : Int} (hge : -0x8000000000000000 ≤ n) (hlt : n < 0x8000000000000000) :
    wide n = .ok n := if_pos (isSigned_iff.2 ⟨hge, hlt⟩)

/-- A step within the bounds of 32 bits has a result. -/
theorem narrow_eq {n : Int} (hge : -0x80000000 ≤ n) (hlt : n < 0x80000000) : narrow n = .ok n :=
  if_pos (isNarrow_iff.2 ⟨hge, hlt⟩)

/-- A step within the bounds of 32 bits without a sign has a result. -/
theorem unsigned_eq {n : Nat} (hlt : n < 0x100000000) : unsigned n = .ok n :=
  if_pos ⟨Int.natCast_nonneg n, by omega⟩

end Word

/-! ## Years -/

/-- A day can be that of an instant exactly when its year is one of those that instants lie in. -/
theorem Date.year_mem_range_iff {year day : Int} {dayOfYear : Nat}
    (hday : daysBeforeYear year + dayOfYear = day) (hlt : dayOfYear < Date.daysInYear year) :
    minDay ≤ day ∧ day ≤ maxDay ↔ -262143 ≤ year ∧ year ≤ 262142 := by
  have hnext := Date.daysBeforeYear_succ year
  show daysBeforeYear (-262143) ≤ day ∧ day ≤ daysBeforeYear 262143 - 1 ↔ _
  constructor
  · rintro ⟨hmin, hmax⟩
    constructor
    · by_contra hless
      have hle := Date.daysBeforeYear_le (show year + 1 ≤ -262143 by omega)
      omega
    · by_contra hmore
      have hle := Date.daysBeforeYear_le (show 262143 ≤ year by omega)
      omega
  · rintro ⟨hmin, hmax⟩
    have hfirst := Date.daysBeforeYear_le hmin
    have hlast := Date.daysBeforeYear_le (show year + 1 ≤ 262143 by omega)
    omega

/-! ## Cycles of 400 years -/

namespace Cycle

/-- How many leap years a cycle has before one of its years; its first year is a leap year. -/
def leapYearsBefore (year : Nat) : Nat := (year + 3) / 4 - (year + 99) / 100 + (year + 399) / 400

/-- The entry of the table of leap years, which has one for each year and one for the end. -/
def leapYearsEntry (year : Nat) : Except Overflow Nat :=
  if year ≤ 400 then .ok (leapYearsBefore year) else .error .noEntry

/-- The day of a cycle that is the given day of one of its years. -/
def dayOfYear (year day : Nat) : Except Overflow Nat := do
  let leapYears ← leapYearsEntry year
  Word.unsigned (365 * year + leapYears + day : Nat)

/-- The year of a cycle in which one of its days lies, and the day of that year. The years are
counted as if none were a leap year, which is too many by one if the leap days before do not fit. -/
def yearOfDay (day : Nat) : Except Overflow (Nat × Nat) := do
  let leapYears ← leapYearsEntry (day / 365)
  if leapYears ≤ day % 365 then pure (day / 365, day % 365 - leapYears)
  else do
    let year ← Word.unsigned ((day / 365 : Nat) - 1)
    let leapYears ← leapYearsEntry year
    let left ← Word.unsigned (365 - leapYears)
    pure (year, day % 365 + left)

/-- The days before a year by its place in a cycle. -/
theorem daysBeforeYear_eq (cycle : Int) {year : Nat} (h : year ≤ 400) :
    daysBeforeYear (400 * cycle + year) =
      146097 * cycle + (365 * year + leapYearsBefore year : Nat) - 366 := by
  unfold daysBeforeYear leapYearsBefore
  omega

/-- The days of a year by its place in a cycle. -/
theorem daysInYear_eq (cycle : Int) {year : Nat} (h : year < 400) :
    Date.daysInYear (400 * cycle + year) + leapYearsBefore year =
      365 + leapYearsBefore (year + 1) := by
  have hstart := daysBeforeYear_eq cycle (Nat.le_of_lt h)
  have hend := daysBeforeYear_eq cycle (show year + 1 ≤ 400 by omega)
  have hnext := Date.daysBeforeYear_succ (400 * cycle + year)
  rw [show 400 * cycle + ((year + 1 : Nat) : Int) = 400 * cycle + year + 1 by omega] at hend
  omega

/-- The table has an entry for every year of a cycle. -/
theorem leapYearsEntry_eq {year : Nat} (h : year ≤ 400) :
    leapYearsEntry year = .ok (leapYearsBefore year) := if_pos h

/-- A day of a year is found in its cycle. -/
theorem exists_dayOfYear (year : Int) {day : Nat} (h : day < Date.daysInYear year) :
    ∃ found, dayOfYear (year % 400).toNat day = .ok found ∧ found < 146097 ∧
      146097 * (year / 400) + found - 366 = daysBeforeYear year + day := by
  obtain ⟨place, hplace⟩ : ∃ place : Nat, (year % 400).toNat = place := ⟨_, rfl⟩
  have hplaceLt : place < 400 := by omega
  have hyear : 400 * (year / 400) + place = year := by omega
  have hstart := daysBeforeYear_eq (year / 400) (Nat.le_of_lt hplaceLt)
  have hlength := daysInYear_eq (year / 400) hplaceLt
  rw [hyear] at hstart hlength
  have hlt : 365 * place + leapYearsBefore place + day < 146097 := by
    have hnext : leapYearsBefore (place + 1) ≤ 97 := by
      unfold leapYearsBefore
      omega
    omega
  refine ⟨365 * place + leapYearsBefore place + day, ?_, hlt, by omega⟩
  rw [hplace, dayOfYear, leapYearsEntry_eq (Nat.le_of_lt hplaceLt), Overflow.ok_bind]
  exact Word.unsigned_eq (by omega)

/-- Finding the year of a day of a cycle has a result, and the day is among the days of that
year. -/
theorem yearOfDay_spec {day : Nat} (h : day < 146097) :
    ∃ year rest, yearOfDay day = .ok (year, rest) ∧ year < 400 ∧
      365 * year + leapYearsBefore year + rest = day ∧
      rest + leapYearsBefore year < 365 + leapYearsBefore (year + 1) := by
  unfold yearOfDay
  rw [leapYearsEntry_eq (by omega), Overflow.ok_bind]
  split
  · next hfits =>
      refine ⟨_, _, rfl, ?_⟩
      unfold leapYearsBefore at hfits ⊢
      omega
  · next hlarge =>
      -- There is a leap year before, so there is a year before.
      obtain ⟨year, hyear⟩ : ∃ year, day / 365 = year + 1 := by
        unfold leapYearsBefore at hlarge
        exact ⟨day / 365 - 1, by omega⟩
      have hle : leapYearsBefore year ≤ 97 := by
        unfold leapYearsBefore
        omega
      have hbefore : Word.unsigned ((day / 365 : Nat) - 1) = .ok year := by
        rw [show ((day / 365 : Nat) : Int) - 1 = year by omega]
        exact Word.unsigned_eq (by omega)
      have hleft : Word.unsigned (365 - leapYearsBefore year) =
          .ok (365 - leapYearsBefore year) := by
        rw [show (365 : Int) - leapYearsBefore year = (365 - leapYearsBefore year : Nat) by omega]
        exact Word.unsigned_eq (by omega)
      rw [hbefore, Overflow.ok_bind, leapYearsEntry_eq (by omega), Overflow.ok_bind, hleft,
        Overflow.ok_bind]
      rw [hyear] at hlarge
      exact ⟨_, _, rfl, by omega⟩

/-- The year of a day is found from the start of any cycle. -/
theorem exists_yearOfDay (cycle day : Int) :
    ∃ place rest, yearOfDay (day % 146097).toNat = .ok (place, rest) ∧ place < 400 ∧
      daysBeforeYear (400 * (cycle + day / 146097) + place) + rest = 146097 * cycle + day - 366 ∧
      rest < Date.daysInYear (400 * (cycle + day / 146097) + place) := by
  obtain ⟨place, rest, hfind, hplace, hrest, hrestLt⟩ :=
    yearOfDay_spec (show (day % 146097).toNat < 146097 by omega)
  have hstart := daysBeforeYear_eq (cycle + day / 146097) (Nat.le_of_lt hplace)
  have hlength := daysInYear_eq (cycle + day / 146097) hplace
  exact ⟨place, rest, hfind, hplace, by omega, by omega⟩

end Cycle

/-! ## Times of the day and dates -/

/-- A length of time can have that many seconds: its milliseconds fit into 64 bits. -/
def isDuration (seconds : Int) : Bool := Word.isSigned (1000 * seconds)

/-- The seconds from the start of a day that are reached from one of its times. A leap second counts
as the second after it when time is taken away. -/
def reachedSecond (second nano : Nat) (seconds : Int) : Int :=
  second + (if nanosPerSecond ≤ nano ∧ seconds < 0 then 1 else 0) + seconds

/-- The nanoseconds that are reached. A leap second is left, unless no time is added. -/
def reachedNano (nano : Nat) (seconds : Int) : Nat :=
  if seconds = 0 then nano else nano % nanosPerSecond

/-- The second and the nanoseconds of the day after adding seconds, and the seconds of the whole
days that are carried to the date. -/
def addToTime (second nano : Nat) (seconds : Int) : Except Overflow (Nat × Nat × Int) :=
  if nanosPerSecond ≤ nano ∧ seconds = 0 then pure (second, nano, 0)
  else do
    let start ← Word.wide (second + if nanosPerSecond ≤ nano ∧ seconds < 0 then 1 else 0)
    let sum ← Word.wide (start + seconds)
    let carried ← Word.wide (sum - sum % secondsPerDay)
    pure ((sum % secondsPerDay).toNat, nano % nanosPerSecond, carried)

/-- The year and the day of the year after adding days, if the year is one that instants lie in. -/
def addToDate (year : Int) (dayOfYear : Nat) (days : Int) :
    Except Overflow (Option (Int × Nat)) :=
  if Word.isNarrow days = false then pure none
  else if 0 ≤ dayOfYear + days ∧ dayOfYear + days < Date.daysInYear year then
    pure (some (year, (dayOfYear + days).toNat))
  else do
    let day ← Cycle.dayOfYear (year % 400).toNat dayOfYear
    if Word.isNarrow (day + days) = false then pure none
    else do
      let cycle ← Word.narrow (year / 400 + (day + days) / 146097)
      let (place, rest) ← Cycle.yearOfDay ((day + days) % 146097).toNat
      let start ← Word.narrow (400 * cycle)
      let found ← Word.narrow (start + place)
      pure (if -262143 ≤ found ∧ found ≤ 262142 then some (found, rest) else none)

/-- The bounds of the seconds of a length of time. -/
theorem isDuration_iff {seconds : Int} :
    isDuration seconds = true ↔ -9223372036854775 ≤ seconds ∧ seconds ≤ 9223372036854775 := by
  rw [isDuration, Word.isSigned_iff]
  omega

/-- The second that is reached lies no further than a day and the seconds from the start of the
day. -/
theorem reachedSecond_bounds {second : Nat} (hsecond : second < secondsPerDay) (nano : Nat)
    (seconds : Int) :
    seconds ≤ reachedSecond second nano seconds ∧
      reachedSecond second nano seconds ≤ seconds + 86400 := by
  replace hsecond : second < 86400 := hsecond
  unfold reachedSecond
  split <;> omega

/-- Unless nothing is added in a leap second, the nanoseconds within the second are reached. -/
theorem reachedNano_eq {nano : Nat} {seconds : Int}
    (h : ¬ (nanosPerSecond ≤ nano ∧ seconds = 0)) :
    reachedNano nano seconds = nano % nanosPerSecond := by
  unfold reachedNano
  split
  · next hzero => rw [Nat.mod_eq_of_lt (Nat.lt_of_not_le fun hle ↦ h ⟨hle, hzero⟩)]
  · rfl

/-- Adding seconds to a time of the day has a result, and carries whole days. -/
theorem addToTime_eq {second nano : Nat} {seconds : Int} (hsecond : second < secondsPerDay)
    (h : isDuration seconds) :
    addToTime second nano seconds =
      .ok ((reachedSecond second nano seconds % secondsPerDay).toNat, reachedNano nano seconds,
        secondsPerDay * (reachedSecond second nano seconds / secondsPerDay)) := by
  rw [isDuration_iff] at h
  have hbounds := reachedSecond_bounds hsecond nano seconds
  replace hsecond : second < 86400 := hsecond
  unfold addToTime
  split
  · next hstay =>
      obtain ⟨-, rfl⟩ := hstay
      have hreached : reachedSecond second nano 0 = second := by
        rw [reachedSecond, if_neg (by omega)]
        omega
      rw [hreached, reachedNano, if_pos rfl]
      show Except.ok (second, nano, (0 : Int)) =
        .ok (((second : Int) % 86400).toNat, nano, 86400 * ((second : Int) / 86400))
      rw [show ((second : Int) % 86400).toNat = second by omega,
        show 86400 * ((second : Int) / 86400) = 0 by omega]
  · next hmove =>
      have hstart : Word.wide (second + if nanosPerSecond ≤ nano ∧ seconds < 0 then 1 else 0) =
          .ok (second + if nanosPerSecond ≤ nano ∧ seconds < 0 then 1 else 0) :=
        Word.wide_eq (by split <;> omega) (by split <;> omega)
      rw [reachedNano_eq hmove, hstart, Overflow.ok_bind]
      show (Word.wide (reachedSecond second nano seconds) >>= _) = _
      generalize reachedSecond second nano seconds = sum at hbounds ⊢
      have hcarried : Word.wide (sum - sum % secondsPerDay) =
          .ok (secondsPerDay * (sum / secondsPerDay)) := by
        show Word.wide (sum - sum % 86400) = .ok (86400 * (sum / 86400))
        rw [show sum - sum % 86400 = 86400 * (sum / 86400) by omega]
        exact Word.wide_eq (by omega) (by omega)
      rw [Word.wide_eq (by omega) (by omega), Overflow.ok_bind, hcarried]
      rfl

/-- Adding days to a date has a result, and the date is that of the day so many days later. -/
theorem addToDate_eq {year day days : Int} {dayOfYear : Nat}
    (hday : daysBeforeYear year + dayOfYear = day) (hlt : dayOfYear < Date.daysInYear year)
    (hmin : minDay ≤ day) (hmax : day ≤ maxDay) :
    addToDate year dayOfYear days =
      .ok (if minDay ≤ day + days ∧ day + days ≤ maxDay then some (Date.yearOfDay (day + days))
        else none) := by
  have hrange := (Date.year_mem_range_iff hday hlt).1 ⟨hmin, hmax⟩
  have hminDay : minDay = -95746130 := by decide
  have hmaxDay : maxDay = 95745398 := by decide
  unfold addToDate
  split
  · next hwide =>
      have hout : ¬ (-0x80000000 ≤ days ∧ days < 0x80000000) := by
        simpa [← Word.isNarrow_iff] using hwide
      rw [if_neg (by omega)]
      rfl
  split
  · next hsame =>
      have hsameDay : daysBeforeYear year + ((dayOfYear + days).toNat : Int) = day + days := by
        omega
      have hsameLt : (dayOfYear + days).toNat < Date.daysInYear year := by omega
      rw [Date.yearOfDay_eq hsameDay hsameLt,
        if_pos ((Date.year_mem_range_iff hsameDay hsameLt).2 hrange)]
      rfl
  -- Another year is found from the cycle of the date.
  obtain ⟨ofCycle, hofCycle, hofCycleLt, hstart⟩ := Cycle.exists_dayOfYear year hlt
  rw [hofCycle, Overflow.ok_bind]
  split
  · next hwide =>
      have hout :
          ¬ (-0x80000000 ≤ (ofCycle : Int) + days ∧ (ofCycle : Int) + days < 0x80000000) := by
        simpa [← Word.isNarrow_iff] using hwide
      rw [if_neg (by omega)]
      rfl
  · next hnarrow =>
      rw [Bool.not_eq_false, Word.isNarrow_iff] at hnarrow
      obtain ⟨place, rest, hfind, hplace, hfound, hrest⟩ :=
        Cycle.exists_yearOfDay (year / 400) (ofCycle + days)
      generalize hreached : (ofCycle : Int) + days = reached at *
      replace hfound : daysBeforeYear (400 * (year / 400 + reached / 146097) + place) + rest =
          day + days := by omega
      have hyears := Date.year_mem_range_iff hfound hrest
      rw [Date.yearOfDay_eq hfound hrest, Word.narrow_eq (by omega) (by omega), Overflow.ok_bind,
        hfind, Overflow.ok_bind]
      show (Word.narrow (400 * _) >>= _) = _
      rw [Word.narrow_eq (by omega) (by omega), Overflow.ok_bind,
        Word.narrow_eq (by omega) (by omega), Overflow.ok_bind]
      simp only [hyears]
      rfl

/-! ## Instants by their year -/

/-- A year, a day of the year, a second of the day and nanoseconds. -/
structure SplitInstant where
  year : Int
  dayOfYear : Nat
  second : Nat
  nano : Nat
  deriving DecidableEq

namespace SplitInstant

/-- The parts are those of a date and of a time of the day. Any second can be a leap second. -/
def IsProper (t : SplitInstant) : Prop :=
  -262143 ≤ t.year ∧ t.year ≤ 262142 ∧ t.dayOfYear < Date.daysInYear t.year ∧
    t.second < secondsPerDay ∧ t.nano < 2 * nanosPerSecond

/-- Being proper is decided by comparing numbers. -/
instance (t : SplitInstant) : Decidable t.IsProper := inferInstanceAs (Decidable (_ ∧ _))

/-- The number of the day. -/
def day (t : SplitInstant) : Int := daysBeforeYear t.year + t.dayOfYear

/-- The instant lies in a leap second. -/
def isLeap (t : SplitInstant) : Bool := nanosPerSecond ≤ t.nano

/-- The nanoseconds since day 0. Those of a leap second are also those of the second after it. -/
def nanoseconds (t : SplitInstant) : Int :=
  (t.day * secondsPerDay + t.second) * nanosPerSecond + t.nano

/-- The first instant comes before the second. -/
def Before (s t : SplitInstant) : Prop :=
  s.day < t.day ∨ s.day = t.day ∧ (s.second < t.second ∨ s.second = t.second ∧ s.nano < t.nano)

/-- Instants are in the order of time. -/
instance : LT SplitInstant := ⟨Before⟩

/-- The order of time is decided part by part. -/
instance (s t : SplitInstant) : Decidable (s < t) := inferInstanceAs (Decidable (_ ∨ _))

/-- The instant with the given day and time of the day, if instants lie on that day. -/
def ofDay? (day : Int) (second nano : Nat) : Option SplitInstant :=
  if minDay ≤ day ∧ day ≤ maxDay then
    some ⟨(Date.yearOfDay day).1, (Date.yearOfDay day).2, second, nano⟩
  else none

/-- The instant that many seconds later, in the steps in which it is computed. The whole days of the
sum are no length of time if there are too many of them. -/
def add (t : SplitInstant) (seconds : Int) : Except Overflow (Option SplitInstant) := do
  let (second, nano, carried) ← addToTime t.second t.nano seconds
  if isDuration carried = false then pure none
  else do
    let date ← addToDate t.year t.dayOfYear (carried.tdiv secondsPerDay)
    pure (date.map fun (year, dayOfYear) ↦ ⟨year, dayOfYear, second, nano⟩)

variable {t : SplitInstant} {seconds : Int}

/-- The day of an instant is one that instants lie on. -/
theorem IsProper.day_mem_range (h : t.IsProper) : minDay ≤ t.day ∧ t.day ≤ maxDay :=
  (Date.year_mem_range_iff rfl h.2.2.1).2 ⟨h.1, h.2.1⟩

/-- Every step of the addition has a result, whether seconds are added or taken away. -/
theorem add_eq (ht : t.IsProper) (h : isDuration seconds) :
    t.add seconds =
      .ok (ofDay? (t.day + reachedSecond t.second t.nano seconds / secondsPerDay)
        (reachedSecond t.second t.nano seconds % secondsPerDay).toNat
        (reachedNano t.nano seconds)) := by
  obtain ⟨hmin, hmax⟩ := ht.day_mem_range
  obtain ⟨-, -, hdayOfYear, hsecond, -⟩ := ht
  rw [add, addToTime_eq hsecond h, Overflow.ok_bind]
  generalize reachedSecond t.second t.nano seconds = sum
  show (if isDuration (secondsPerDay * (sum / secondsPerDay)) = false then _ else _) = _
  unfold ofDay?
  split
  · next hlong =>
      have hminDay : minDay = -95746130 := by decide
      have hmaxDay : maxDay = 95745398 := by decide
      have hout : ¬ (-9223372036854775 ≤ (86400 : Int) * (sum / 86400) ∧
          (86400 : Int) * (sum / 86400) ≤ 9223372036854775) := by
        rw [← isDuration_iff]
        exact Bool.not_eq_true _ ▸ hlong
      have hoff : ¬ (minDay ≤ t.day + sum / 86400 ∧ t.day + sum / 86400 ≤ maxDay) := by omega
      exact congrArg Except.ok (if_neg hoff).symm
  · rw [Int.mul_tdiv_cancel_left _ (by decide), addToDate_eq rfl hdayOfYear hmin hmax,
      Overflow.ok_bind]
    show Except.ok (Option.map _ (if minDay ≤ t.day + _ ∧ t.day + _ ≤ maxDay then _ else _)) = _
    split <;> rfl

/-- The instant is the given one, or would be if it were not in a leap second. -/
structure IsSecondOf (t : SplitInstant) (instant : Instant) : Prop where
  day : instant.day = t.day
  second : instant.second = t.second
  nano : instant.nano = t.nano ∨ instant.nano = t.nano % nanosPerSecond

/-- Every instant can be taken out of its leap second. -/
theorem IsProper.exists_isSecondOf (h : t.IsProper) : ∃ instant, t.IsSecondOf instant := by
  have hisInstant : IsInstant t.day t.second (t.nano % nanosPerSecond) :=
    ⟨h.day_mem_range.1, h.day_mem_range.2, h.2.2.2.1, .inl (Nat.mod_lt _ (by decide))⟩
  exact ⟨⟨_, _, _, hisInstant⟩, rfl, rfl, .inr rfl⟩

namespace IsSecondOf

variable {instant : Instant}

/-- Outside leap seconds the two have the same nanoseconds. -/
theorem nano_eq (h : t.IsSecondOf instant) (hleap : t.isLeap = false) : instant.nano = t.nano := by
  have hlt : t.nano < nanosPerSecond := Nat.lt_of_not_le (of_decide_eq_false hleap)
  rcases h.nano with hnano | hnano
  · exact hnano
  · rw [hnano, Nat.mod_eq_of_lt hlt]

/-- Outside leap seconds the two are the same point in time. -/
theorem nanoseconds_eq (h : t.IsSecondOf instant) (hleap : t.isLeap = false) :
    instant.isLeap = false ∧ instant.nanoseconds = t.nanoseconds := by
  have hnano := h.nano_eq hleap
  constructor
  · rw [Instant.isLeap, hnano]
    exact hleap
  · rw [Instant.nanoseconds, Instant.totalSeconds, h.day, h.second, hnano]
    rfl

/-- The nanoseconds within the second are the same. -/
theorem nano_mod (h : t.IsSecondOf instant) :
    instant.nano % nanosPerSecond = t.nano % nanosPerSecond := by
  rcases h.nano with hnano | hnano <;> rw [hnano]
  exact Nat.mod_mod _ _

end IsSecondOf

end SplitInstant

namespace Instant

variable {s t : Instant} {seconds : Int}

/-- The year of an instant, its day of the year, and its time of the day. -/
def split (t : Instant) : SplitInstant :=
  ⟨(Date.yearOfDay t.day).1, (Date.yearOfDay t.day).2, t.second, t.nano⟩

/-- An instant and its parts have the same day. -/
@[simp]
theorem day_split (t : Instant) : t.split.day = t.day := (Date.yearOfDay_spec t.day).1

/-- The parts of an instant are proper. -/
theorem isProper_split (t : Instant) : t.split.IsProper := by
  obtain ⟨hday, hlt⟩ := Date.yearOfDay_spec t.day
  obtain ⟨hmin, hmax, hsecond, hnano⟩ := t.isInstant
  obtain ⟨hfirst, hlast⟩ := (Date.year_mem_range_iff hday hlt).1 ⟨hmin, hmax⟩
  refine ⟨hfirst, hlast, hlt, hsecond, ?_⟩
  show t.nano < 2 * 1000000000
  change t.nano < 1000000000 ∨ t.nano < 2 * 1000000000 ∧ _ at hnano
  omega

/-- The parts of an instant are of the instant itself. -/
theorem isSecondOf_split (t : Instant) : t.split.IsSecondOf t := ⟨t.day_split.symm, rfl, .inl rfl⟩

/-- An instant is known by its parts. -/
theorem split_injective (h : s.split = t.split) : s = t := by
  refine eq_of_parts ?_ (congrArg SplitInstant.second h) (congrArg SplitInstant.nano h)
  rw [← s.day_split, ← t.day_split, h]

/-- The order of time is that of the parts. -/
theorem split_lt_split_iff : s.split < t.split ↔ s < t := by
  rw [lt_iff_parts]
  show s.split.day < t.split.day ∨ s.split.day = t.split.day ∧ _ ↔ _
  rw [day_split, day_split]
  rfl

/-- Adding seconds carries whole days from the time of the day to the day. -/
theorem map_split_shift? (hpos : 0 < seconds) :
    (t.shift? seconds).map split =
      SplitInstant.ofDay? (t.day + (t.second + seconds) / secondsPerDay)
        ((t.second + seconds) % secondsPerDay).toNat (t.nano % nanosPerSecond) := by
  have hsecond := t.second_lt
  have hday : minDay ≤ t.day := t.isInstant.1
  cases hshift : t.shift? seconds with
  | some later =>
      obtain ⟨htotal, hnano⟩ := (shift?_eq_some_iff hpos).1 hshift
      have hlaterSecond := later.second_lt
      rw [totalSeconds_eq, totalSeconds_eq] at htotal
      have hlaterDay : t.day + (t.second + seconds) / secondsPerDay = later.day := by
        show t.day + (t.second + seconds) / 86400 = later.day
        omega
      have hreached : ((t.second + seconds) % secondsPerDay).toNat = later.second := by
        show ((t.second + seconds) % 86400).toNat = later.second
        omega
      rw [hlaterDay, hreached, ← hnano]
      exact (if_pos ⟨later.isInstant.1, later.isInstant.2.1⟩).symm
  | none =>
      have hoff : ¬ (minDay ≤ t.day + (t.second + seconds) / 86400 ∧
          t.day + (t.second + seconds) / 86400 ≤ maxDay) := by
        rintro ⟨-, hmax⟩
        have htotal := t.totalSeconds_eq
        obtain ⟨later, hlater⟩ := exists_shift?_of_day (t := t) hpos (by omega)
        rw [hshift] at hlater
        cases hlater
      exact (if_neg hoff).symm

end Instant

/-- Adding seconds in steps has a result, which is the sum, also from a leap second at a time of the
day that no leap second of an instant is at. -/
theorem SplitInstant.IsSecondOf.add_eq {t : SplitInstant} {instant : Instant} {seconds : Int}
    (h : t.IsSecondOf instant) (ht : t.IsProper) (hpos : 0 < seconds)
    (hduration : isDuration seconds) :
    t.add seconds = .ok ((instant.shift? seconds).map Instant.split) := by
  have hsecond : reachedSecond t.second t.nano seconds = t.second + seconds := by
    rw [reachedSecond, if_neg (by omega), Int.add_zero]
  have hnano : reachedNano t.nano seconds = t.nano % nanosPerSecond := reachedNano_eq (by omega)
  rw [SplitInstant.add_eq ht hduration, Instant.map_split_shift? hpos, hsecond, hnano, h.day,
    h.second, h.nano_mod]

example : (SplitInstant.mk 2016 365 86399 1500000000).add 1 = .ok (some ⟨2017, 0, 0, 500000000⟩) :=
  rfl

/-- Adding seconds leads to a later instant, also from a leap second at any time of the day. -/
theorem SplitInstant.IsSecondOf.lt_of_shift? {t : SplitInstant} {instant later : Instant}
    {seconds : Int} (h : t.IsSecondOf instant) (hpos : 0 < seconds)
    (hlater : instant.shift? seconds = some later) : t < later.split := by
  obtain ⟨htotal, -⟩ := (Instant.shift?_eq_some_iff hpos).1 hlater
  have hsecond := instant.second_lt
  have hlaterSecond := later.second_lt
  rw [Instant.totalSeconds_eq, Instant.totalSeconds_eq, h.day, h.second] at htotal
  show t.day < later.split.day ∨ t.day = later.split.day ∧ (t.second < later.second ∨ _)
  rw [h.second] at hsecond
  rw [Instant.day_split]
  omega

end SigningKeys
