import SigningKeys.Time.Calendar

/-!
# Instants

Points in time to the nanosecond. A leap second is counted on from the second before it, which is
then up to two seconds long; only the last second of a minute can be. Instants lie in the years from
-262143 to 262142.
-/

namespace SigningKeys

/-- The nanoseconds of a second. -/
def nanosPerSecond : Nat := 1000000000

/-- The seconds of a day. -/
def secondsPerDay : Nat := 86400

/-- The first day that an instant can lie on. -/
def minDay : Int := daysBeforeYear (-262143)

/-- The last day that an instant can lie on. -/
def maxDay : Int := daysBeforeYear 262143 - 1

/-- The day, the second of the day and the nanoseconds are those of an instant. -/
def IsInstant (day : Int) (second nano : Nat) : Prop :=
  minDay ≤ day ∧ day ≤ maxDay ∧ second < secondsPerDay ∧
    (nano < nanosPerSecond ∨ nano < 2 * nanosPerSecond ∧ second % 60 = 59)

/-- Being an instant is decided by comparing numbers. -/
instance (day : Int) (second nano : Nat) : Decidable (IsInstant day second nano) :=
  inferInstanceAs (Decidable (_ ∧ _))

/-- A point in time. -/
structure Instant where
  day : Int
  second : Nat
  nano : Nat
  isInstant : IsInstant day second nano
  deriving DecidableEq

namespace Instant

/-- The instant with the given parts. -/
def ofParts? (day : Int) (second nano : Nat) : Option Instant :=
  if isInstant : IsInstant day second nano then some ⟨day, second, nano, isInstant⟩ else none

/-- The instant lies in a leap second. -/
def isLeap (t : Instant) : Bool := nanosPerSecond ≤ t.nano

/-- The seconds since day 0; a leap second counts as the second before it. -/
def totalSeconds (t : Instant) : Int := t.day * secondsPerDay + t.second

/-- The instant at a number of seconds and nanoseconds since day 0. -/
def ofTotalSeconds? (total : Int) (nano : Nat) : Option Instant :=
  ofParts? (total / secondsPerDay) (total % secondsPerDay).toNat nano

/-- The instant that many seconds later, or earlier if the number is negative. A leap second counts
as the second before it when time is added and as the second after it when time is taken away. -/
def shift? (t : Instant) (seconds : Int) : Option Instant :=
  if seconds = 0 then some t
  else
    let start := t.totalSeconds + if t.isLeap && seconds < 0 then 1 else 0
    ofTotalSeconds? (start + seconds) (t.nano % nanosPerSecond)

/-- The first instant comes before the second. -/
def Before (s t : Instant) : Prop :=
  s.day < t.day ∨ s.day = t.day ∧ (s.second < t.second ∨ s.second = t.second ∧ s.nano < t.nano)

/-- Instants are in the order of time. -/
instance : LT Instant := ⟨Before⟩

/-- The order of time is decided part by part. -/
instance (s t : Instant) : Decidable (s < t) := inferInstanceAs (Decidable (_ ∨ _))

end Instant

end SigningKeys
