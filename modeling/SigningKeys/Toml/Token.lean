import SigningKeys.Number.Word
import SigningKeys.Text.Decimal
import SigningKeys.Text.Hexadecimal
import SigningKeys.Time.Calendar
import SigningKeys.Toml.Basic

/-!
# TOML tokens

The values that are written without quotation marks or brackets: numbers, truth values, dates and
times. Underscores may stand between digits. Integers have 64 bits.
-/

namespace SigningKeys.Toml

open Text

/-- The digits without the underscores, each of which must stand between two digits. -/
def ungroup? (isDigit : Char → Bool) : List Char → Option (List Char)
  | [] => none
  | [c] => if isDigit c then some [c] else none
  | c :: '_' :: rest => if isDigit c then (ungroup? isDigit rest).map (c :: ·) else none
  | c :: rest => if isDigit c then (ungroup? isDigit rest).map (c :: ·) else none

/-- A token without its sign, and whether that is a minus. -/
def splitSign : List Char → Bool × List Char
  | '-' :: rest => (true, rest)
  | '+' :: rest => (false, rest)
  | token => (false, token)

/-- The digits of a decimal number: no leading zero, unless zero is the only digit. -/
def wholeDigits? (token : List Char) : Option (List Char) := do
  let digits ← ungroup? Decimal.isDigit token
  if digits.head? = some '0' ∧ digits.length ≠ 1 then none else some digits

/-- The character is one of the first digits of a base. -/
def isDigitOf (base : Nat) (c : Char) : Bool := (hexValue? c).any (· < base)

/-- The number that digits of a base stand for. -/
def numberOf (base : Nat) (digits : List Char) : Nat :=
  digits.foldl (fun high c ↦ high * base + (hexValue? c).getD 0) 0

/-- The number that a token without its mark is in a base. -/
def basedNumber? (base : Nat) (token : List Char) : Option Int :=
  (ungroup? (isDigitOf base) token).map fun digits ↦ numberOf base digits

/-- The integer that a token is: decimal with a sign, or marked as hexadecimal, octal or binary. -/
def integerOf? (token : List Char) : Option Int := do
  let n ← match token with
    | '0' :: 'x' :: rest => basedNumber? 16 rest
    | '0' :: 'o' :: rest => basedNumber? 8 rest
    | '0' :: 'b' :: rest => basedNumber? 2 rest
    | _ => do
        let (negative, rest) := splitSign token
        let digits ← wholeDigits? rest
        some (if negative then -(Decimal.value digits : Int) else Decimal.value digits)
  if Word.isSigned n then some n else none

/-- The token is the exponent of a floating-point number, without its letter. -/
def isExponent (token : List Char) : Bool := (ungroup? Decimal.isDigit (splitSign token).2).isSome

/-- The size of an exponent. -/
def exponentOf (token : List Char) : Int :=
  let (negative, rest) := splitSign token
  let size : Int := Decimal.value ((ungroup? Decimal.isDigit rest).getD [])
  if negative then -size else size

/-- The character begins an exponent. -/
def isExponentMark (c : Char) : Bool := c == 'e' || c == 'E'

/-- The token is a floating-point number: digits with a fraction, an exponent or both, or one of the
words for the infinite and the undefined. A positive number must be in the range of double
precision. -/
def isFloat (token : List Char) : Bool :=
  let (negative, unsigned) := splitSign token
  if unsigned = "inf".toList ∨ unsigned = "nan".toList then true
  else
    let mantissa := unsigned.takeWhile (!isExponentMark ·)
    let exponent := (unsigned.dropWhile (!isExponentMark ·)).drop 1
    let hasExponent := mantissa.length ≠ unsigned.length
    let whole := mantissa.takeWhile (· != '.')
    let places := (mantissa.dropWhile (· != '.')).drop 1
    let hasPlaces := whole.length ≠ mantissa.length
    match wholeDigits? whole, ungroup? Decimal.isDigit places with
    | none, _ => false
    | some digits, fraction =>
        let places := fraction.getD []
        let scale := (if hasExponent then exponentOf exponent else 0) - places.length
        (hasExponent || hasPlaces) && (!hasExponent || isExponent exponent) &&
          (!hasPlaces || fraction.isSome) &&
          (negative || Double.inRange (Decimal.value (digits ++ places)) scale)

/-- The number that some digits are, which must be digits. -/
def numberOfDigits? (text : List Char) : Option Nat :=
  if Decimal.isDigits text then some (Decimal.value text) else none

/-- What follows a date at the beginning of a token. -/
def afterDate? : List Char → Option (List Char)
  | a :: b :: c :: d :: '-' :: e :: f :: '-' :: g :: h :: rest => do
      let year ← numberOfDigits? [a, b, c, d]
      let month ← numberOfDigits? [e, f]
      let day ← numberOfDigits? [g, h]
      if Date.IsValid ⟨year, month, day⟩ then some rest else none
  | _ => none

/-- What follows the fraction of a second at the beginning of a token, if there is one. -/
def afterFraction? : List Char → Option (List Char)
  | '.' :: rest =>
      if (rest.takeWhile Decimal.isDigit).isEmpty then none
      else some (rest.dropWhile Decimal.isDigit)
  | token => some token

/-- Two digits are a number up to a limit. -/
def isUpTo (limit : Nat) (tens units : Char) : Bool :=
  (numberOfDigits? [tens, units]).any (· ≤ limit)

/-- What follows a time of day at the beginning of a token. -/
def afterTime? : List Char → Option (List Char)
  | a :: b :: ':' :: c :: d :: ':' :: e :: f :: rest =>
      if isUpTo 23 a b && isUpTo 59 c d && isUpTo 60 e f then afterFraction? rest else none
  | _ => none

/-- The token is an offset from universal time. -/
def isOffset : List Char → Bool
  | [c] => c == 'Z' || c == 'z'
  | [sign, a, b, ':', c, d] => (sign == '+' || sign == '-') && isUpTo 23 a b && isUpTo 59 c d
  | _ => false

/-- The token is a time of day, perhaps with an offset. -/
def isTimeWithOffset (token : List Char) : Bool :=
  match afterTime? token with
  | some rest => rest.isEmpty || isOffset rest
  | none => false

/-- The token is a date. -/
def isDate (token : List Char) : Bool := afterDate? token == some []

/-- The token is a date, a time of day, or a date with a time and perhaps an offset. -/
def isMoment (token : List Char) : Bool :=
  isDate token || afterTime? token == some [] ||
    match afterDate? token with
    | some (c :: rest) => (c == 'T' || c == 't') && isTimeWithOffset rest
    | _ => false

/-- The value that a token is. -/
def valueOfToken? (token : List Char) : Option Value :=
  if token = "true".toList then some (.boolean true)
  else if token = "false".toList then some (.boolean false)
  else if isMoment token then some (.moment (.ofList token))
  else if isFloat token then some (.float (.ofList token))
  else (integerOf? token).map .integer

end SigningKeys.Toml
