import Mathlib.Data.List.Induction
import Mathlib.Tactic.Ring
import SigningKeys.Text.Decimal

/-!
# Digits read back

What is written for a number are digits, without a leading zero (`eq_zero_of_head?_digits`). With
zeros in front up to a width they stand for the same number (`value_padded`), and they fill the
width exactly if the number fits (`length_padded`). A reader that takes digits as long as there are
any takes just these (`Text.takeWhile_append`).
-/

namespace SigningKeys

/-! ## Where a class of characters ends -/

/-- The text does not begin with a character of the class. -/
def Text.EndsBefore (isMember : Char → Bool) (text : List Char) : Prop :=
  ∀ c, text.head? = some c → isMember c = false

namespace Text

variable {isMember : Char → Bool} {lead rest : List Char}

/-- The end of a text is no character. -/
theorem endsBefore_nil : EndsBefore isMember [] := fun _ h ↦ nomatch h

/-- A text begins with its first character. -/
theorem endsBefore_cons {c : Char} (h : isMember c = false) : EndsBefore isMember (c :: rest) := by
  intro first hfirst
  cases hfirst
  exact h

/-- The characters of a class are taken from the front of a text. -/
theorem takeWhile_append (hlead : ∀ c ∈ lead, isMember c = true)
    (hrest : EndsBefore isMember rest) : (lead ++ rest).takeWhile isMember = lead := by
  rw [List.takeWhile_append_of_pos hlead]
  cases rest with
  | nil => simp
  | cons c rest => simp [hrest c rfl]

/-- The characters of a class are dropped from the front of a text. -/
theorem dropWhile_append (hlead : ∀ c ∈ lead, isMember c = true)
    (hrest : EndsBefore isMember rest) : (lead ++ rest).dropWhile isMember = rest := by
  rw [List.dropWhile_append_of_pos hlead]
  cases rest with
  | nil => rfl
  | cons c rest => simp [hrest c rfl]

end Text

namespace Decimal

/-! ## Digits -/

/-- There is at least one digit. -/
theorem digits_ne_nil (n : Nat) : digits n ≠ [] := by
  have h := isDigits_digits n
  intro hnil
  simp [isDigits, hnil] at h

/-- What is written for a number are digits. -/
theorem isDigit_of_mem_digits {n : Nat} {c : Char} (h : c ∈ digits n) : isDigit c = true := by
  have hall := isDigits_digits n
  rw [isDigits, Bool.and_eq_true, List.all_eq_true] at hall
  exact hall.2 c h

/-- Only zero is written with a zero in front, and with nothing else. -/
theorem eq_zero_of_head?_digits {n : Nat} (h : (digits n).head? = some '0') : n = 0 := by
  induction n using digits.induct with
  | case1 n hlt =>
      have hdigit : ∀ n < 10, digit n = '0' → n = 0 := by decide
      rw [digits, if_pos hlt, List.head?_cons, Option.some.injEq] at h
      exact hdigit n hlt h
  | case2 n hlt ih =>
      rw [digits, if_neg hlt, List.head?_append,
        List.head?_eq_some_head (digits_ne_nil (n / 10)), Option.some_or] at h
      have hzero := ih (by rw [List.head?_eq_some_head (digits_ne_nil (n / 10)), h])
      omega

/-- A number below a power of ten has no more digits than the power says. -/
theorem length_digits_le {n width : Nat} (hwidth : 0 < width) (h : n < 10 ^ width) :
    (digits n).length ≤ width := by
  induction n using digits.induct generalizing width with
  | case1 n hlt =>
      rw [digits, if_pos hlt]
      exact hwidth
  | case2 n hlt ih =>
      obtain ⟨rest, rfl⟩ : ∃ rest, width = rest + 1 := ⟨width - 1, by omega⟩
      have hrest : n / 10 < 10 ^ rest := by
        rw [Nat.pow_succ] at h
        omega
      -- A number with a further digit does not fit one place.
      have hpos : 0 < rest := by
        cases rest with
        | zero => simp only [Nat.zero_add, Nat.pow_one] at h; omega
        | succ rest => omega
      rw [digits, if_neg hlt, List.length_append, List.length_singleton]
      have hle := ih hpos hrest
      omega

/-! ## Numbers of digits -/

/-- Digits after others are the lower ones. -/
theorem value_append (high low : List Char) :
    value (high ++ low) = value high * 10 ^ low.length + value low := by
  induction low using List.reverseRecOn with
  | nil => simp [value]
  | append_singleton low c ih =>
      rw [← List.append_assoc, value_concat, ih, value_concat, List.length_append,
        List.length_singleton, Nat.pow_succ]
      ring

/-- Zeros stand for zero. -/
theorem value_replicate_zero (count : Nat) : value (List.replicate count '0') = 0 := by
  induction count with
  | zero => rfl
  | succ count ih =>
      rw [List.replicate_succ', value_concat, ih]
      rfl

/-! ## Zeros in front -/

/-- With zeros in front a number is written in digits. -/
theorem isDigit_of_mem_padded {width n : Nat} {c : Char} (h : c ∈ padded width n) :
    isDigit c = true := by
  rw [padded, List.mem_append] at h
  rcases h with h | h
  · rw [List.eq_of_mem_replicate h]
    rfl
  · exact isDigit_of_mem_digits h

/-- Zeros in front do not count. -/
@[simp]
theorem value_padded (width n : Nat) : value (padded width n) = n := by
  rw [padded, value_append, value_replicate_zero, value_digits, Nat.zero_mul, Nat.zero_add]

/-- A number that fits a width fills it. -/
theorem length_padded {width n : Nat} (hwidth : 0 < width) (h : n < 10 ^ width) :
    (padded width n).length = width := by
  have hle := length_digits_le hwidth h
  rw [padded, List.length_append, List.length_replicate]
  omega

/-- There is at least one digit, with zeros in front or not. -/
theorem padded_ne_nil (width n : Nat) : padded width n ≠ [] :=
  List.append_ne_nil_of_right_ne_nil _ (digits_ne_nil n)

/-- With zeros in front a number begins with a digit. -/
theorem exists_padded_eq_cons (width n : Nat) :
    ∃ c rest, padded width n = c :: rest ∧ isDigit c = true := by
  obtain ⟨c, rest, htext⟩ := List.exists_cons_of_ne_nil (padded_ne_nil width n)
  exact ⟨c, rest, htext, isDigit_of_mem_padded (htext ▸ List.mem_cons_self)⟩

/-- Without zeros in front it does as well. -/
theorem exists_digits_eq_cons (n : Nat) :
    ∃ c rest, digits n = c :: rest ∧ isDigit c = true := by
  simpa [padded] using exists_padded_eq_cons 0 n

/-! ## Texts of numbers -/

/-- The text of a number stands for it. -/
theorem natOfText?_digits (n : Nat) : natOfText? (digits n) = some n := by
  obtain ⟨c, rest, hdigits, hc⟩ := exists_digits_eq_cons n
  have hread : natOfText? (c :: rest) =
      if isDigits (c :: rest) then some (value (c :: rest)) else none := by
    unfold natOfText?
    split
    · next heq =>
        cases heq
        exact absurd hc (by decide)
    · rfl
  rw [hdigits, hread, ← hdigits, isDigits_digits, if_pos rfl, value_digits]

/-- The text of an integer stands for it. -/
theorem intOfText?_signedDigits (n : Int) : intOfText? (signedDigits n) = some n := by
  rw [signedDigits]
  split
  · next hnegative =>
      rw [intOfText?, isDigits_digits, if_pos rfl, value_digits]
      exact congrArg some (by omega)
  · next hnonnegative =>
      obtain ⟨c, rest, hdigits, hc⟩ := exists_digits_eq_cons n.natAbs
      unfold intOfText?
      split
      · next heq =>
          rw [hdigits] at heq
          cases heq
          exact absurd hc (by decide)
      · rw [natOfText?_digits, Option.map_some]
        exact congrArg some (by simp only [Int.ofNat_eq_natCast]; omega)

end Decimal

end SigningKeys
