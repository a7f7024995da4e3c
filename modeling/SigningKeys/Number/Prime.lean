import SigningKeys.Number.Modular

/-!
# Probable primes

The strong probable-prime test of an odd number to a list of bases, and the search for a number that
passes it, upwards from a given odd number. The test never fails for a prime; for a random number of
a thousand bits that is not prime it succeeds with negligible probability.
-/

namespace SigningKeys.Prime

/-- The primes below fifty, which serve as bases of the test. -/
def bases : List Nat := [2, 3, 5, 7, 11, 13, 17, 19, 23, 29, 31, 37, 41, 43, 47]

/-- Odd numbers from 3 up to about a thousand: a cheap test divides by these first. -/
def divisors : List Nat := (List.range 500).map (2 * · + 3)

/-- How often two divides a positive number, and what is left. -/
def splitTwos (n : Nat) : Nat × Nat :=
  if n = 0 ∨ n % 2 = 1 then (0, n)
  else
    let (twos, odd) := splitTwos (n / 2)
    (twos + 1, odd)

/-- The residue is the negative of one, or becomes it after at most `squarings` squarings. -/
def reachesMinusOne (modulus : Nat) : Nat → Nat → Bool
  | 0, residue => residue == modulus - 1
  | squarings + 1, residue =>
      residue == modulus - 1 || reachesMinusOne modulus squarings (residue * residue % modulus)

/-- An odd number passes the test to one base. -/
def passes (n base : Nat) : Bool :=
  let (twos, odd) := splitTwos (n - 1)
  let residue := Modular.power base odd n
  residue == 1 || reachesMinusOne n (twos - 1) residue

/-- No small divisor divides the number, and it passes the test to every base. -/
def isProbable (n : Nat) : Bool := divisors.all (n % · != 0) && bases.all (passes n)

/-- The first of `width` numbers, from `start` in steps of two, that is acceptable and a probable
prime. -/
def search? (acceptable : Nat → Bool) (start : Nat) : Nat → Option Nat
  | 0 => none
  | width + 1 =>
      if acceptable start && isProbable start then some start
      else search? acceptable (start + 2) width

end SigningKeys.Prime
