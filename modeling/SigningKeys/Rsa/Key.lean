import SigningKeys.Number.BigEndian
import SigningKeys.Number.Modular

/-!
# RSA keys

Public and private RSA keys as numbers that fit together. A private key has two factors of the
modulus, which count as primes without being tested, and any exponent that inverts the public one
modulo each factor less one. The numbers that speed up signing are computed from these.
-/

namespace SigningKeys.Rsa

/-- The exponent that keys are generated with. -/
def commonExponent : Nat := 65537

/-- The largest public exponent of a key. -/
def maxExponent : Nat := 0x1ffffffff

/-- The modulus and the exponent are odd, and the exponent is at least 2 and below the modulus. -/
def IsPublic (modulus exponent : Nat) : Prop :=
  modulus % 2 = 1 ∧ exponent < modulus ∧ exponent % 2 = 1 ∧ 2 ≤ exponent ∧ exponent ≤ maxExponent

/-- Being the numbers of a public key is decided number by number. -/
instance (modulus exponent : Nat) : Decidable (IsPublic modulus exponent) :=
  inferInstanceAs (Decidable (_ ∧ _))

/-- A public key. -/
structure PublicKey where
  modulus : Nat
  exponent : Nat
  isPublic : IsPublic modulus exponent
  deriving DecidableEq

/-- The public key with the given numbers. -/
def PublicKey.ofNumbers? (modulus exponent : Nat) : Option PublicKey :=
  if isPublic : IsPublic modulus exponent then some ⟨modulus, exponent, isPublic⟩ else none

/-- The factors are greater than one, make up the modulus, and the exponents are inverse to each
other modulo each factor less one. -/
def IsPrivate (modulus exponent secret first second : Nat) : Prop :=
  1 < first ∧ 1 < second ∧ first * second = modulus ∧
    exponent * secret % (first - 1) = 1 ∧ exponent * secret % (second - 1) = 1

/-- Being the numbers of a private key is decided number by number. -/
instance (modulus exponent secret first second : Nat) :
    Decidable (IsPrivate modulus exponent secret first second) :=
  inferInstanceAs (Decidable (_ ∧ _))

/-- A private key with two primes. -/
structure PrivateKey where
  publicKey : PublicKey
  secret : Nat
  first : Nat
  second : Nat
  isPrivate : IsPrivate publicKey.modulus publicKey.exponent secret first second
  deriving DecidableEq

/-- The private key with the given numbers. -/
def PrivateKey.ofNumbers? (modulus exponent secret first second : Nat) : Option PrivateKey := do
  let publicKey ← PublicKey.ofNumbers? modulus exponent
  if isPrivate : IsPrivate publicKey.modulus publicKey.exponent secret first second then
    some ⟨publicKey, secret, first, second, isPrivate⟩
  else none

/-- The numbers that follow from the factors when these have no common factor. -/
structure Remainders where
  /-- The secret exponent modulo the first prime less one. -/
  first : Nat
  /-- The secret exponent modulo the second prime less one. -/
  second : Nat
  /-- The inverse of the second prime modulo the first. -/
  coefficient : Nat
  deriving DecidableEq

/-- The remainders of a key, unless its primes share a factor. -/
def PrivateKey.remainders? (key : PrivateKey) : Option Remainders := do
  let coefficient ← Modular.inverse? key.second key.first
  some ⟨key.secret % (key.first - 1), key.secret % (key.second - 1), coefficient⟩

end SigningKeys.Rsa
