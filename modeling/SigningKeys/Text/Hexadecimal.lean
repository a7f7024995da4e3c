/-!
# Hexadecimal digits

The values of hexadecimal digits of either case, and the characters that digits number.
-/

namespace SigningKeys.Text

/-- The value of a hexadecimal digit of either case. -/
def hexValue? (c : Char) : Option Nat :=
  if '0' ≤ c ∧ c ≤ '9' then some (c.toNat - '0'.toNat)
  else if 'a' ≤ c ∧ c ≤ 'f' then some (c.toNat - 'a'.toNat + 10)
  else if 'A' ≤ c ∧ c ≤ 'F' then some (c.toNat - 'A'.toNat + 10)
  else none

/-- The number that hexadecimal digits stand for after the digits of `high`. -/
def hexNumber? (high : Nat) : List Char → Option Nat
  | [] => some high
  | c :: rest => do
      let digit ← hexValue? c
      hexNumber? (high * 16 + digit) rest

/-- The character with the number that hexadecimal digits stand for. -/
def charOfHex? (digits : List Char) : Option Char := do
  let number ← hexNumber? 0 digits
  if number.isValidChar then some (Char.ofNat number) else none

end SigningKeys.Text
