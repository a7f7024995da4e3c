import SigningKeys.Proofs.Text.Decimal
import SigningKeys.Proofs.Time.Calendar
import SigningKeys.Proofs.Time.Instant
import SigningKeys.Time.Text

/-!
# Instants read back

The text of an instant stands for this instant (`Instant.ofText?_text`), whatever its year and its
fraction of a second, and in a leap second as well. Each part of the text is read by itself, with
any rest after it that does not go on with a digit.
-/

namespace SigningKeys.Instant

open Text

/-! ## Numbers -/

/-- A digit is not a blank. -/
theorem isBlank_of_isDigit {c : Char} (h : Decimal.isDigit c = true) : isBlank c = false := by
  have hapart : ∀ range ∈ blankRanges, range.2 < 48 ∨ 57 < range.1 := by decide
  simp only [Decimal.isDigit, Bool.and_eq_true, decide_eq_true_eq, Char.le_def,
    UInt32.le_iff_toNat_le] at h
  have hlow : 48 ≤ c.toNat := h.1
  have hhigh : c.toNat ≤ 57 := h.2
  rw [isBlank, inRanges, List.any_eq_false]
  intro range hmem
  have hrange := hapart range hmem
  simp only [Bool.and_eq_true, decide_eq_true_eq]
  omega

/-- A text that begins with a character that is no blank has no blanks to drop. -/
theorem trimStart_cons {c : Char} (h : isBlank c = false) (rest : List Char) :
    trimStart (c :: rest) = c :: rest := by
  simp [trimStart, h]

/-- A text that begins with digits has no blanks to drop. -/
theorem trimStart_digits {digits : List Char} (hne : digits ≠ [])
    (h : ∀ c ∈ digits, Decimal.isDigit c = true) (rest : List Char) :
    trimStart (digits ++ rest) = digits ++ rest := by
  cases digits with
  | nil => exact absurd rfl hne
  | cons c digits => exact trimStart_cons (isBlank_of_isDigit (h c List.mem_cons_self)) _

/-- Digits are read, all of them if no more may be read or none follows. -/
theorem readDigits_append {most : Nat} {digits rest : List Char} (hne : digits ≠ [])
    (h : ∀ c ∈ digits, Decimal.isDigit c = true) (hlength : digits.length ≤ most)
    (hrest : digits.length = most ∨ EndsBefore Decimal.isDigit rest) :
    readDigits most (digits ++ rest) = some (Decimal.value digits, rest) := by
  have hfollow : EndsBefore Decimal.isDigit (rest.take (most - digits.length)) := by
    intro c hc
    rw [List.head?_take] at hc
    split at hc
    · cases hc
    · next hmore => exact hrest.resolve_left (by omega) c hc
  have htaken : ((digits ++ rest).take most).takeWhile Decimal.isDigit = digits := by
    rw [List.take_append, List.take_of_length_le hlength]
    exact takeWhile_append h hfollow
  simp only [readDigits, htaken, if_neg hne, List.drop_left]

/-- A number of one or two digits is read from two digits. -/
theorem readPart_padded {n : Nat} (h : n < 100) (rest : List Char) :
    readPart (Decimal.padded 2 n ++ rest) = some (n, rest) := by
  have hdigits : ∀ c ∈ Decimal.padded 2 n, Decimal.isDigit c = true :=
    fun c ↦ Decimal.isDigit_of_mem_padded
  have hlength : (Decimal.padded 2 n).length = 2 := Decimal.length_padded (by decide) h
  rw [readPart, trimStart_digits (Decimal.padded_ne_nil 2 n) hdigits,
    readDigits_append (Decimal.padded_ne_nil 2 n) hdigits (Nat.le_of_eq hlength) (.inl hlength),
    Decimal.value_padded]

/-- A separator is read. -/
theorem readMark_cons {mark : Char} (h : isBlank mark = false) (rest : List Char) :
    readMark mark (mark :: rest) = some rest := by
  rw [readMark, trimStart_cons h]
  exact dropLead?_append [mark] rest

/-! ## Dates -/

/-- After a sign any number of digits is read, else four. -/
theorem readYear_digit {c : Char} (h : Decimal.isDigit c = true) (rest : List Char) :
    readYear (c :: rest) =
      (readDigits 4 (c :: rest)).map fun (n, rest) ↦ ((n : Int), rest) := by
  have hminus : c ≠ '-' := by rintro rfl; cases h
  have hplus : c ≠ '+' := by rintro rfl; cases h
  rw [readYear, trimStart_cons (isBlank_of_isDigit h)]
  split
  · next htext => exact absurd (List.cons.inj htext).1 hminus
  · next htext => exact absurd (List.cons.inj htext).1 hplus
  · rfl

/-- A year is read from its text, if no digit follows. -/
theorem readYear_yearChars (year : Int) {rest : List Char}
    (hrest : EndsBefore Decimal.isDigit rest) :
    readYear (yearChars year ++ rest) = some (year, rest) := by
  have hread : ∀ n most, (Decimal.padded 4 n).length ≤ most →
      (Decimal.padded 4 n).length = most ∨ EndsBefore Decimal.isDigit rest →
      readDigits most (Decimal.padded 4 n ++ rest) = some (n, rest) := by
    intro n most hlength hmore
    rw [readDigits_append (Decimal.padded_ne_nil _ _)
      (fun c ↦ Decimal.isDigit_of_mem_padded) hlength hmore, Decimal.value_padded]
  rw [yearChars]
  split
  · next hrange =>
      have hlength : (Decimal.padded 4 year.toNat).length = 4 :=
        Decimal.length_padded (by decide) (by omega)
      have hfour := hread year.toNat 4 (Nat.le_of_eq hlength) (.inl hlength)
      obtain ⟨c, digits, htext, hc⟩ := Decimal.exists_padded_eq_cons 4 year.toNat
      rw [htext] at hfour ⊢
      rw [List.cons_append] at hfour ⊢
      rw [readYear_digit hc, hfour]
      simp only [Option.map_some, Option.some.injEq, Prod.mk.injEq, and_true]
      omega
  · have hall := hread year.natAbs (Decimal.padded 4 year.natAbs ++ rest).length (by simp)
      (.inr hrest)
    split
    · next hneg =>
        rw [List.cons_append, readYear, trimStart_cons (by decide)]
        simp only [hall, Option.map_some, Option.some.injEq, Prod.mk.injEq, and_true]
        omega
    · next hneg =>
        rw [List.cons_append, readYear, trimStart_cons (by decide)]
        simp only [hall, Option.map_some, Option.some.injEq, Prod.mk.injEq, and_true]
        omega

/-- A date is read from its text. -/
theorem readDate_dateChars {date : Date} (hvalid : date.IsValid) (rest : List Char) :
    readDate (dateChars date ++ rest) = some (date, rest) := by
  obtain ⟨_, hmonth, _, hday⟩ := hvalid
  have hdays := Date.daysInMonth_le date.year hmonth
  simp only [readDate, dateChars, List.append_assoc, List.cons_append,
    readYear_yearChars date.year (endsBefore_cons (by decide : Decimal.isDigit '-' = false)),
    readMark_cons (by decide : isBlank '-' = false),
    readPart_padded (show date.month < 100 by omega),
    readPart_padded (show date.day < 100 by omega), Option.bind_eq_bind, Option.bind_some]

/-! ## Times of day -/

/-- A fraction is read from a point and at most nine digits, if no digit follows: the digits that
are left out are zeros. -/
theorem readFraction_padded {width n : Nat} (hpos : 0 < width) (hwidth : width ≤ 9)
    (hlt : n < 10 ^ width) {rest : List Char} (hrest : EndsBefore Decimal.isDigit rest) :
    readFraction ('.' :: Decimal.padded width n ++ rest) = some (n * 10 ^ (9 - width), rest) := by
  have hdigits : ∀ c ∈ Decimal.padded width n, Decimal.isDigit c = true :=
    fun c ↦ Decimal.isDigit_of_mem_padded
  have hlength := Decimal.length_padded hpos hlt
  simp only [List.cons_append, readFraction, takeWhile_append hdigits hrest,
    dropWhile_append hdigits hrest, if_neg (Decimal.padded_ne_nil width n)]
  rw [List.take_of_length_le (by omega), Decimal.value_append, Decimal.value_padded, hlength,
    Decimal.value_replicate_zero, List.length_replicate, Nat.add_zero]

/-- A fraction of a second is read from its text, if neither a digit nor a point follows. -/
theorem readFraction_fractionChars {nano : Nat} (h : nano < nanosPerSecond) {rest : List Char}
    (hrest : EndsBefore Decimal.isDigit rest) (hpoint : rest.head? ≠ some '.') :
    readFraction (fractionChars nano ++ rest) = some (nano, rest) := by
  have hsecond : nanosPerSecond = 1000000000 := rfl
  rw [fractionChars]
  split
  · next hzero =>
      rw [List.nil_append, readFraction, hzero]
      intro tail htail
      simp [htail] at hpoint
  · split
    · rw [readFraction_padded (by decide) (by decide) (by omega) hrest]
      simp only [Option.some.injEq, Prod.mk.injEq, and_true]
      omega
    · split
      · rw [readFraction_padded (by decide) (by decide) (by omega) hrest]
        simp only [Option.some.injEq, Prod.mk.injEq, and_true]
        omega
      · rw [readFraction_padded (by decide) (by decide) (by omega) hrest]
        simp

/-- A time of day is read from its text, a leap second from the second 60. -/
theorem readTime_timeChars {day : Int} {second nano : Nat} (h : IsInstant day second nano)
    {rest : List Char} (hrest : EndsBefore Decimal.isDigit rest) (hpoint : rest.head? ≠ some '.') :
    readTime (timeChars second nano ++ rest) = some (⟨second, nano⟩, rest) := by
  obtain ⟨-, -, hsecond, hnano⟩ := h
  have hday : secondsPerDay = 86400 := rfl
  -- A second is written as it is, or as 60 if it has begun twice.
  have hparts : nano / nanosPerSecond = 0 ∧ nano % nanosPerSecond = nano ∨
      nano / nanosPerSecond = 1 ∧ nanosPerSecond + nano % nanosPerSecond = nano ∧
        second % 60 = 59 := by
    unfold nanosPerSecond at hnano ⊢
    omega
  have hfraction := readFraction_fractionChars (Nat.mod_lt nano (by decide)) hrest hpoint
  have hcolon : isBlank ':' = false := by decide
  have hhour : second / 3600 < 100 := by omega
  have hminute : second / 60 % 60 < 100 := by omega
  have hwritten : second % 60 + nano / nanosPerSecond < 100 := by omega
  simp only [readTime, timeChars, List.append_assoc, List.cons_append, readPart_padded hhour,
    readPart_padded hminute, readPart_padded hwritten, readMark_cons hcolon, hfraction,
    Option.bind_eq_bind, Option.bind_some]
  rw [if_pos (by omega)]
  rcases hparts with ⟨hwhole, hfraction⟩ | ⟨hwhole, hfraction, hleap⟩
  · rw [hwhole, hfraction, if_neg (by omega)]
    simp only [Option.some.injEq, Prod.mk.injEq, TimeOfDay.mk.injEq, and_true]
    omega
  · rw [hwhole, hfraction, if_pos (by omega)]
    simp only [Option.some.injEq, Prod.mk.injEq, TimeOfDay.mk.injEq, and_true]
    omega

/-! ## Instants -/

/-- The text of an instant stands for it. -/
@[simp]
theorem ofText?_text (t : Instant) : ofText? t.text = some t := by
  obtain ⟨hvalid, hday⟩ := Date.dayNumber_ofDayNumber t.day
  have hend : EndsBefore Decimal.isDigit ['Z'] := endsBefore_cons (by decide)
  have hchars : t.chars = dateChars (Date.ofDayNumber t.day) ++
      'T' :: (timeChars t.second t.nano ++ ['Z']) := by simp [chars]
  have hseparator : ∀ rest, readSeparator ('T' :: rest) = some rest := fun rest ↦ rfl
  have hoffset : readOffset (trimStart ['Z']) = some (0, []) := rfl
  have hwritten : ofParts? t.day t.second t.nano = some t := ofParts?_eq_some_iff.2 ⟨rfl, rfl, rfl⟩
  have hsame : ofTotalSeconds? (t.totalSeconds - 0) t.nano = some t := by
    have hsecond := t.second_lt
    have hperDay : (secondsPerDay : Int) = 86400 := rfl
    rw [ofTotalSeconds?, ofParts?_eq_some_iff, totalSeconds_eq, hperDay]
    omega
  rw [ofText?, text, String.toList_ofList, hchars, ofChars?]
  simp only [readDate_dateChars hvalid, hseparator, readTime_timeChars t.isInstant hend (by decide),
    hoffset, Option.bind_eq_bind, Option.bind_some]
  rw [if_pos ⟨hvalid, rfl⟩, hday, hwritten, Option.bind_some, hsame]

end SigningKeys.Instant
