import SigningKeys.Number.BigEndian

/-!
# Entropy

Random bytes, which the caller draws, and numbers and key ids made from them. A number below a bound
is taken from at least sixteen more bytes than the bound has, so that no number is favoured by more
than one part in `2 ^ 128`.
-/

namespace SigningKeys

/-- Random bytes. -/
abbrev Entropy := List UInt8

namespace Entropy

/-- How many bytes more than a number has are drawn for it. -/
def surplus : Nat := 16

/-- A number below `2 ^ (8 * bytes)`, and the bytes that are left. -/
def number (bytes : Nat) (entropy : Entropy) : Nat × Entropy :=
  (BigEndian.toNat (entropy.take bytes), entropy.drop bytes)

/-- A number below a bound of at most `bytes` bytes, and the bytes that are left. -/
def below (bound bytes : Nat) (entropy : Entropy) : Nat × Entropy :=
  let (drawn, rest) := entropy.number (bytes + surplus)
  (drawn % bound, rest)

end Entropy

/-- The letters and digits of key ids. -/
def keyIdAlphabet : List Char :=
  "ABCDEFGHIJKLMNOPQRSTUVWXYZabcdefghijklmnopqrstuvwxyz0123456789".toList

/-- How many characters a key id has. -/
def keyIdLength : Nat := 40

/-- How many random bytes a key id is made from. -/
def keyIdBytes : Nat := 48

/-- The given number of characters, as digits in the alphabet of key ids. -/
def keyIdDigits : Nat → Nat → List Char
  | 0, _ => []
  | count + 1, n =>
      keyIdAlphabet.getD (n % keyIdAlphabet.length) 'A' ::
        keyIdDigits count (n / keyIdAlphabet.length)

/-- The key id that random bytes give. -/
def keyIdOf (entropy : Entropy) : String :=
  .ofList (keyIdDigits keyIdLength (BigEndian.toNat (entropy.take keyIdBytes)))

end SigningKeys
