import Mathlib.Order.Defs.LinearOrder
import SigningKeys.Time.Instant

/-!
# The order of instants

Instants are in a linear order, and a later instant is reached by adding seconds
(`Instant.lt_of_shift?`). Outside leap seconds an instant is its number of nanoseconds: this number
orders instants, and adding seconds adds to it (`Instant.nanoseconds_shift?`) unless the sum is past
the last instant (`Instant.exists_shift?_iff`).
-/

namespace SigningKeys.Instant

/-! ## The linear order -/

/-- An instant comes no later than another if the other does not come before it. -/
instance : LE Instant := ⟨fun s t ↦ ¬ t < s⟩

/-- Coming no later is decided by the order of time. -/
instance (s t : Instant) : Decidable (s ≤ t) := inferInstanceAs (Decidable (¬ _))

variable {s t later : Instant} {seconds : Int}

/-- Instants with the same parts are the same. -/
theorem eq_of_parts (hday : s.day = t.day) (hsecond : s.second = t.second)
    (hnano : s.nano = t.nano) : s = t := by
  cases s
  cases t
  simp_all

/-- One instant comes before another by its day, then by its second, then by its nanosecond. -/
theorem lt_iff_parts : s < t ↔ s.day < t.day ∨
    s.day = t.day ∧ (s.second < t.second ∨ s.second = t.second ∧ s.nano < t.nano) := Iff.rfl

/-- Coming no later is decided by the same parts. -/
theorem le_iff_parts : s ≤ t ↔ s.day < t.day ∨
    s.day = t.day ∧ (s.second < t.second ∨ s.second = t.second ∧ s.nano ≤ t.nano) := by
  show ¬ t < s ↔ _
  rw [lt_iff_parts]
  omega

/-- The order of time is linear. -/
instance : LinearOrder Instant where
  le_refl t := le_iff_parts.2 (by omega)
  le_trans s t u hst htu := by
    rw [le_iff_parts] at *
    omega
  le_antisymm s t hst hts := by
    rw [le_iff_parts] at hst hts
    exact eq_of_parts (by omega) (by omega) (by omega)
  le_total s t := by
    rw [le_iff_parts, le_iff_parts]
    omega
  lt_iff_le_not_ge s t := by
    rw [le_iff_parts, le_iff_parts, lt_iff_parts]
    omega
  toDecidableLE := inferInstance

/-! ## Adding seconds -/

/-- The seconds since day 0 as a number of days and seconds. -/
theorem totalSeconds_eq (t : Instant) : t.totalSeconds = t.day * 86400 + t.second := rfl

/-- The second of an instant lies within its day. -/
theorem second_lt (t : Instant) : t.second < 86400 := t.isInstant.2.2.1

/-- The nanoseconds within a second are fewer than a second has. -/
theorem nano_mod_lt (t : Instant) : t.nano % nanosPerSecond < nanosPerSecond :=
  Nat.mod_lt _ (by decide)

/-- The instant with the given parts is the one that has them. -/
theorem ofParts?_eq_some_iff {day : Int} {second nano : Nat} :
    ofParts? day second nano = some t ↔ t.day = day ∧ t.second = second ∧ t.nano = nano := by
  unfold ofParts?
  constructor
  · intro h
    split at h
    · cases h
      exact ⟨rfl, rfl, rfl⟩
    · cases h
  · rintro ⟨rfl, rfl, rfl⟩
    exact dif_pos t.isInstant

/-- Adding seconds adds them to the seconds, where a leap second counts as the second before it, and
keeps the nanoseconds within the second. -/
theorem shift?_eq_some_iff (hpos : 0 < seconds) :
    t.shift? seconds = some later ↔
      later.totalSeconds = t.totalSeconds + seconds ∧ later.nano = t.nano % nanosPerSecond := by
  have hlater := later.second_lt
  have hforward : ¬ seconds < 0 := by omega
  have hstart : t.shift? seconds =
      ofParts? ((t.totalSeconds + seconds) / 86400) ((t.totalSeconds + seconds) % 86400).toNat
        (t.nano % nanosPerSecond) := by
    rw [shift?, if_neg (by omega)]
    simp only [hforward, decide_false, Bool.and_false, Bool.false_eq_true, if_false, Int.add_zero]
    rfl
  rw [hstart, ofParts?_eq_some_iff, later.totalSeconds_eq]
  omega

/-- Adding seconds leads to a later instant, from a leap second as well. -/
theorem lt_of_shift? (hpos : 0 < seconds) (h : t.shift? seconds = some later) : t < later := by
  obtain ⟨htotal, -⟩ := (shift?_eq_some_iff hpos).1 h
  have ht := t.second_lt
  have hlater := later.second_lt
  rw [totalSeconds_eq, totalSeconds_eq] at htotal
  rw [lt_iff_parts]
  omega

/-- Seconds can be added if the sum lies on no day after the last. -/
theorem exists_shift?_of_day (hpos : 0 < seconds)
    (hday : t.totalSeconds + seconds < (maxDay + 1) * 86400) :
    ∃ later, t.shift? seconds = some later := by
  have hmin : minDay ≤ t.day := t.isInstant.1
  have htotal := t.totalSeconds_eq
  generalize hsum : t.totalSeconds + seconds = sum at hday
  have hparts : IsInstant (sum / 86400) (sum % 86400).toNat (t.nano % nanosPerSecond) :=
    ⟨by omega, by omega, show (sum % 86400).toNat < 86400 by omega, .inl t.nano_mod_lt⟩
  refine ⟨⟨_, _, _, hparts⟩, (shift?_eq_some_iff hpos).2 ⟨?_, rfl⟩⟩
  rw [totalSeconds_eq, hsum]
  show sum / 86400 * 86400 + ((sum % 86400).toNat : Int) = sum
  omega

/-- If seconds can be added, so can fewer. -/
theorem exists_shift?_of_le {more : Int} (hpos : 0 < seconds) (hle : seconds ≤ more)
    (h : t.shift? more = some later) : ∃ earlier, t.shift? seconds = some earlier := by
  obtain ⟨htotal, -⟩ := (shift?_eq_some_iff (by omega)).1 h
  have hmax : later.day ≤ maxDay := later.isInstant.2.1
  have hlater := later.second_lt
  rw [later.totalSeconds_eq] at htotal
  exact exists_shift?_of_day hpos (by omega)

/-! ## Nanoseconds -/

/-- The nanoseconds since day 0. Those of a leap second are also those of the second after it. -/
def nanoseconds (t : Instant) : Int := t.totalSeconds * nanosPerSecond + t.nano

/-- The last instant that is not in a leap second. -/
def last : Instant := ⟨maxDay, 86399, 999999999, by decide⟩

/-- The nanoseconds since day 0 as a number of days, seconds and nanoseconds. -/
theorem nanoseconds_eq (t : Instant) :
    t.nanoseconds = (t.day * 86400 + t.second) * 1000000000 + t.nano := rfl

/-- Outside leap seconds the nanoseconds are fewer than a second has. -/
theorem nano_lt (hleap : t.isLeap = false) : t.nano < 1000000000 :=
  Nat.lt_of_not_le (of_decide_eq_false hleap)

/-- Outside leap seconds the nanoseconds tell which instant comes first. -/
theorem lt_iff_nanoseconds_lt (hs : s.isLeap = false) (ht : t.isLeap = false) :
    s < t ↔ s.nanoseconds < t.nanoseconds := by
  have hsSecond := s.second_lt
  have htSecond := t.second_lt
  have hsNano := nano_lt hs
  have htNano := nano_lt ht
  rw [lt_iff_parts, nanoseconds_eq, nanoseconds_eq]
  omega

/-- Outside leap seconds the nanoseconds tell which instant comes no later. -/
theorem le_iff_nanoseconds_le (hs : s.isLeap = false) (ht : t.isLeap = false) :
    s ≤ t ↔ s.nanoseconds ≤ t.nanoseconds := by
  rw [← not_lt, lt_iff_nanoseconds_lt ht hs, Int.not_lt]

/-- Adding seconds never leads into a leap second. -/
theorem isLeap_of_shift? (hpos : 0 < seconds) (h : t.shift? seconds = some later) :
    later.isLeap = false := by
  obtain ⟨-, hnano⟩ := (shift?_eq_some_iff hpos).1 h
  simpa [isLeap, hnano] using t.nano_mod_lt

/-- Outside leap seconds, adding seconds adds them to the nanoseconds. -/
theorem nanoseconds_shift? (hleap : t.isLeap = false) (hpos : 0 < seconds)
    (h : t.shift? seconds = some later) :
    later.nanoseconds = t.nanoseconds + seconds * nanosPerSecond := by
  obtain ⟨htotal, hnano⟩ := (shift?_eq_some_iff hpos).1 h
  rw [Nat.mod_eq_of_lt (show t.nano < nanosPerSecond from nano_lt hleap)] at hnano
  rw [nanoseconds, nanoseconds, htotal, hnano, Int.add_mul]
  omega

/-- Outside leap seconds, seconds can be added exactly when the sum is not past the last instant. -/
theorem exists_shift?_iff (hleap : t.isLeap = false) (hpos : 0 < seconds) :
    (∃ later, t.shift? seconds = some later) ↔
      t.nanoseconds + seconds * nanosPerSecond ≤ last.nanoseconds := by
  have hnano := nano_lt hleap
  constructor
  · rintro ⟨later, h⟩
    have hlater := nano_lt (isLeap_of_shift? hpos h)
    have hsecond := later.second_lt
    have hday : later.day ≤ maxDay := later.isInstant.2.1
    rw [← nanoseconds_shift? hleap hpos h, nanoseconds_eq, nanoseconds_eq]
    show _ ≤ (maxDay * 86400 + 86399) * 1000000000 + 999999999
    omega
  · intro h
    replace h : (t.day * 86400 + t.second) * 1000000000 + t.nano + seconds * 1000000000 ≤
        (maxDay * 86400 + 86399) * 1000000000 + 999999999 := h
    have htotal := t.totalSeconds_eq
    exact exists_shift?_of_day hpos (by omega)

end SigningKeys.Instant
