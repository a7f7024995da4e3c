import SigningKeys.Number.Word
import SigningKeys.Text.Decimal

/-!
# Numbers in JSON

Numbers as they are written: digits, a point among them, and an exponent. Where a number is
converted to double precision, only the digits that fit an integer of 64 bits count.
-/

namespace SigningKeys.Json

/-- A number as it is written: the digits, how many of them stand after the point, and the
exponent. -/
structure Numeral where
  negative : Bool
  digits : Nat
  places : Nat
  exponent : Option Int
  deriving DecidableEq

namespace Numeral

/-- The digits before the point. -/
def whole (n : Numeral) : List Char := Decimal.digits (n.digits / Nat.pow 10 n.places)

/-- The digits after the point. -/
def fraction (n : Numeral) : List Char :=
  if n.places = 0 then [] else Decimal.padded n.places (n.digits % Nat.pow 10 n.places)

/-- Appends digits from before the point to a number as long as 64 bits hold it; the result tells
how many are left out. -/
def appendWhole (significand : Nat) : List Char → Nat × Nat
  | [] => (significand, 0)
  | c :: rest =>
      let next := significand * 10 + Decimal.digitValue c
      if Word.isUnsigned next then appendWhole next rest else (significand, rest.length + 1)

/-- Appends digits from after the point to a number as long as 64 bits hold it; the result tells
how many are appended. -/
def appendFraction (significand : Nat) : List Char → Nat × Nat
  | [] => (significand, 0)
  | c :: rest =>
      let next := significand * 10 + Decimal.digitValue c
      if Word.isUnsigned next then
        let (significand, count) := appendFraction next rest
        (significand, count + 1)
      else (significand, 0)

/-- The leading digits as an integer, and the power of ten that it is to be multiplied by. -/
def leading (n : Numeral) : Nat × Int :=
  let (significand, omitted) := appendWhole 0 n.whole
  let (significand, appended) := appendFraction significand n.fraction
  (significand, n.exponent.getD 0 + omitted - appended)

/-- The number is in the range of double precision when it is computed from its leading digits. -/
def isDouble (n : Numeral) : Bool := Double.productInRange n.leading.1 n.leading.2

end Numeral

end SigningKeys.Json
