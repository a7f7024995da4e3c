/-!
# Numbers of 64 bits

The ranges of the integers of 64 bits, with and without a sign, and of the numbers of double
precision. Whether a decimal number rounds to a finite number of double precision is computed when
it is rounded once, and when it is the product of a rounded integer and a rounded power of ten.
-/

namespace SigningKeys.Word

/-- The integer fits into 64 bits with a sign. -/
def isSigned (n : Int) : Bool := -0x8000000000000000 ≤ n && n < 0x8000000000000000

/-- The number fits into 64 bits without a sign. -/
def isUnsigned (n : Nat) : Bool := n < 0x10000000000000000

end SigningKeys.Word

namespace SigningKeys.Double

/-- The first number too large for a double-precision number: halfway between the largest one and
the next power of two. -/
def limit : Nat := Nat.pow 2 1024 - Nat.pow 2 970

/-- How many digits the limit has; a number of more digits is too large in any case. -/
def limitDigits : Nat := 309

/-- The number `digits · 10 ^ scale` is in the range of double precision. -/
def inRange (digits : Nat) (scale : Int) : Bool :=
  if digits = 0 then true
  else
    let length : Int := (Nat.toDigits 10 digits).length + scale
    if length > limitDigits then false
    else if length < limitDigits then true
    else if 0 ≤ scale then digits * Nat.pow 10 scale.toNat < limit
    else digits < limit * Nat.pow 10 (-scale).toNat

/-- The nearest integer with at most 53 significant bits; of two the one whose last bit is zero. -/
def nearest (n : Nat) : Nat :=
  let unit := Nat.pow 2 (n.log2 - 52)
  let units := n / unit
  let rest := n % unit
  let up := unit < 2 * rest ∨ (2 * rest = unit ∧ units % 2 = 1)
  (if up then units + 1 else units) * unit

/-- The product of the number nearest to `significand` and the number nearest to `10 ^ exponent` is
in the range of double precision. A quotient always is. -/
def productInRange (significand : Nat) (exponent : Int) : Bool :=
  if significand = 0 ∨ exponent ≤ 0 then true
  else if limitDigits ≤ exponent then false
  else nearest significand * nearest (Nat.pow 10 exponent.toNat) < limit

end SigningKeys.Double
