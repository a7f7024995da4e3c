import SigningKeys.Entropy
import SigningKeys.Number.Prime
import SigningKeys.Rsa.Key

/-!
# Drawing RSA keys

An RSA key with the common exponent out of random bytes. Each prime is the first probable prime from
a random odd number upwards; since the two highest bits of each are set, the modulus has exactly the
bits that are asked for.
-/

namespace SigningKeys.Rsa

/-- How many odd numbers are tried for a prime, far more than lie between two primes of this
size. -/
def searchWidth : Nat := 32768

/-- The number fits next to the common exponent: its predecessor is no multiple of that prime, and
it has the given number of bits. -/
def isFactor (bits candidate : Nat) : Bool :=
  (candidate - 1) % commonExponent != 0 && BigEndian.bitLength candidate == bits

/-- A prime with the given number of bits, and the random bytes that are left. -/
def drawPrime? (bits : Nat) (entropy : Entropy) : Option Nat × Entropy :=
  let quarter := Nat.pow 2 (bits - 2)
  let (drawn, rest) := entropy.below (quarter / 2) ((bits + 7) / 8)
  (Prime.search? (isFactor bits) (3 * quarter + 2 * drawn + 1) searchWidth, rest)

/-- The key with the given primes. -/
def PrivateKey.ofPrimes? (first second : Nat) : Option PrivateKey := do
  let secret ← Modular.inverse? commonExponent ((first - 1) * (second - 1))
  PrivateKey.ofNumbers? (first * second) commonExponent secret first second

/-- The key with a modulus of the given number of bits that random bytes give. It is found unless a
search for a prime ends early or both primes are the same. -/
def PrivateKey.draw? (bits : Nat) (entropy : Entropy) : Option PrivateKey := do
  let (first, rest) := drawPrime? (bits / 2) entropy
  let (second, _) := drawPrime? (bits - bits / 2) rest
  let key ← PrivateKey.ofPrimes? (← first) (← second)
  if BigEndian.bitLength key.publicKey.modulus = bits ∧ key.remainders?.isSome then some key
  else none

end SigningKeys.Rsa
