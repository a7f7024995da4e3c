/-!
# Arithmetic modulo a number

Powers, and inverses by the extended Euclidean algorithm.
-/

namespace SigningKeys.Modular

/-- The power `base ^ exponent` modulo `modulus`, by squaring. -/
def power (base exponent modulus : Nat) : Nat :=
  if exponent = 0 then 1 % modulus
  else
    let half := power (base * base % modulus) (exponent / 2) modulus
    if exponent % 2 = 1 then base * half % modulus else half

/-- The greatest common divisor `g` of two numbers with factors such that
`g = left * a + right * b`. -/
def bezout (a b : Nat) : Nat × Int × Int :=
  if a = 0 then (b, 0, 1)
  else
    let (divisor, left, right) := bezout (b % a) a
    (divisor, right - (b / a : Nat) * left, left)
termination_by a
decreasing_by exact Nat.mod_lt _ (Nat.pos_of_ne_zero ‹_›)

/-- The number below `modulus` that times `a` leaves the remainder of 1, if there is one. -/
def inverse? (a modulus : Nat) : Option Nat :=
  let (divisor, factor, _) := bezout (a % modulus) modulus
  if divisor = 1 then some (factor % (modulus : Int)).toNat else none

/-- The difference of two residues. -/
def sub (a b modulus : Nat) : Nat := (a + (modulus - b % modulus)) % modulus

end SigningKeys.Modular
