/-!
# Decimal digits

Numbers as decimal digits and texts of digits as numbers. Main statements: reading the digits of a
number gives the number back (`value_digits`), and what is written has only digits
(`isDigits_digits`).
-/

namespace SigningKeys.Decimal

/-- The character is one of the ten digits. -/
def isDigit (c : Char) : Bool := '0' ≤ c && c ≤ '9'

/-- The digit for a number below ten. -/
def digit (n : Nat) : Char := Char.ofNat ('0'.toNat + n)

/-- The number that a digit stands for. -/
def digitValue (c : Char) : Nat := c.toNat - '0'.toNat

/-- The digits of a number, without leading zeros. -/
def digits (n : Nat) : List Char :=
  if n < 10 then [digit n] else digits (n / 10) ++ [digit (n % 10)]

/-- The number that a list of digits stands for. -/
def value (text : List Char) : Nat := text.foldl (fun high c ↦ high * 10 + digitValue c) 0

/-- One more digit makes the number ten times as large and adds the digit. -/
theorem value_concat (text : List Char) (c : Char) :
    value (text ++ [c]) = value text * 10 + digitValue c := by
  simp [value]

/-- A digit stands for the number that it was made for. -/
theorem digitValue_digit : ∀ n < 10, digitValue (digit n) = n := by decide

/-- What is made for a number below ten is a digit. -/
theorem isDigit_digit : ∀ n < 10, isDigit (digit n) = true := by decide

/-- Reading the digits of a number gives the number back. -/
@[simp]
theorem value_digits (n : Nat) : value (digits n) = n := by
  induction n using digits.induct with
  | case1 n h =>
      rw [digits, if_pos h]
      simp [value, digitValue_digit n h]
  | case2 n h ih =>
      rw [digits, if_neg h, value_concat, ih, digitValue_digit _ (Nat.mod_lt _ (by decide))]
      omega

/-- The digits of a number with zeros in front up to a width. -/
def padded (width n : Nat) : List Char :=
  List.replicate (width - (digits n).length) '0' ++ digits n

/-- The text of a number. -/
def text (n : Nat) : String := .ofList (digits n)

/-- The text of an integer, with a minus sign if it is negative. -/
def signedDigits (n : Int) : List Char :=
  if n < 0 then '-' :: digits n.natAbs else digits n.natAbs

/-- Digits and nothing else, at least one. -/
def isDigits (text : List Char) : Bool := !text.isEmpty && text.all isDigit

/-- What is written for a number has only digits, and at least one. -/
@[simp]
theorem isDigits_digits (n : Nat) : isDigits (digits n) = true := by
  induction n using digits.induct with
  | case1 n h =>
      rw [digits, if_pos h]
      simp [isDigits, isDigit_digit n h]
  | case2 n h ih =>
      rw [digits, if_neg h]
      simp only [isDigits, Bool.and_eq_true] at ih ⊢
      simp [ih.2, isDigit_digit _ (Nat.mod_lt n (by decide : 0 < 10))]

/-- The number that a text is, which may begin with a plus sign. -/
def natOfText? (text : List Char) : Option Nat :=
  let unsigned := match text with
    | '+' :: rest => rest
    | _ => text
  if isDigits unsigned then some (value unsigned) else none

/-- The integer that a text is, which may begin with a sign. -/
def intOfText? (text : List Char) : Option Int :=
  match text with
  | '-' :: rest => if isDigits rest then some (-(value rest : Int)) else none
  | _ => (natOfText? text).map Int.ofNat

end SigningKeys.Decimal
