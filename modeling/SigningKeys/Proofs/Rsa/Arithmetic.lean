import SigningKeys.Proofs.Rsa.Key

/-!
# Arithmetic in the test of a private key

The test of an RSA key takes differences and remainders, and these are not defined for all numbers:
a factor may be zero, or one, which leaves zero to divide by. `PrivateKey.testNumbers` takes the
steps of the test with arithmetic that says when it is undefined. No step is, whatever the numbers
are (`PrivateKey.testNumbers_eq`), and neither are those that compute the remainders of a key that
passed the test (`PrivateKey.computeRemainders_eq`).
-/

namespace SigningKeys.Rsa

/-- Why an operation has no result. -/
inductive Undefined where
  | negativeDifference
  | zeroDivisor
  deriving DecidableEq

/-- The difference of two numbers, unless it is negative. -/
def difference (a b : Nat) : Except Undefined Nat :=
  if b ≤ a then .ok (a - b) else .error .negativeDifference

/-- What a division leaves over, unless it is by zero. -/
def remainder (a b : Nat) : Except Undefined Nat :=
  if b = 0 then .error .zeroDivisor else .ok (a % b)

/-- What is left over on division by a factor less one. -/
def remainderByOrder (n factor : Nat) : Except Undefined Nat := do
  let order ← difference factor 1
  remainder n order

/-- A factor greater than one, less one, can be divided by. -/
theorem remainderByOrder_eq {factor : Nat} (h : 1 < factor) (n : Nat) :
    remainderByOrder n factor = .ok (n % (factor - 1)) := by
  have hdifference : difference factor 1 = .ok (factor - 1) := if_pos (by omega)
  have hne : factor - 1 ≠ 0 := by omega
  rw [remainderByOrder, hdifference]
  exact if_neg hne

namespace PrivateKey

/-- Whether the numbers are those of a private key, found step by step. -/
def testNumbers (modulus exponent secret first second : Nat) : Except Undefined Bool := do
  if ¬ IsPublic modulus exponent then return false
  if first ≤ 1 ∨ second ≤ 1 then return false
  if first * second ≠ modulus then return false
  if (← remainderByOrder (exponent * secret) first) ≠ 1 then return false
  let last ← remainderByOrder (exponent * secret) second
  return last = 1

/-- The numbers that speed up signing with a key, computed step by step. -/
def computeRemainders (key : PrivateKey) : Except Undefined (Option Remainders) := do
  let first ← remainderByOrder key.secret key.first
  let second ← remainderByOrder key.secret key.second
  return (Modular.inverse? key.second key.first).map (Remainders.mk first second)

/-- Numbers make up a private key when they have the properties of one. -/
theorem isSome_ofNumbers? (modulus exponent secret first second : Nat) :
    (ofNumbers? modulus exponent secret first second).isSome =
      decide (IsPublic modulus exponent ∧ IsPrivate modulus exponent secret first second) := by
  by_cases hpublic : IsPublic modulus exponent
  · by_cases hprivate : IsPrivate modulus exponent secret first second <;>
      simp [ofNumbers?, PublicKey.ofNumbers?, hpublic, hprivate]
  · simp [ofNumbers?, PublicKey.ofNumbers?, hpublic]

/-- Every step of the test is defined, whatever the numbers, and those pass it that make up a
key. -/
theorem testNumbers_eq (modulus exponent secret first second : Nat) :
    testNumbers modulus exponent secret first second =
      .ok (ofNumbers? modulus exponent secret first second).isSome := by
  rw [isSome_ofNumbers?, testNumbers]
  by_cases hpublic : IsPublic modulus exponent
  · by_cases hsize : first ≤ 1 ∨ second ≤ 1
    · have hprivate : ¬ IsPrivate modulus exponent secret first second :=
        fun h ↦ by have := h.1; have := h.2.1; omega
      simp [hpublic, hsize, hprivate, pure, Except.pure]
    · -- Only now are the factors large enough for the divisions that follow.
      obtain ⟨hfirst, hsecond⟩ : 1 < first ∧ 1 < second := by omega
      by_cases hmodulus : first * second = modulus
      · by_cases hinverse : exponent * secret % (first - 1) = 1 <;>
          simp [hpublic, hsize, hmodulus, hinverse, IsPrivate, hfirst, hsecond,
            remainderByOrder_eq, pure, Except.pure, bind, Except.bind]
      · simp [hpublic, hsize, hmodulus, IsPrivate, pure, Except.pure]
  · simp [hpublic, pure, Except.pure]

/-- Every step towards the remainders of a key is defined. -/
theorem computeRemainders_eq (key : PrivateKey) : key.computeRemainders = .ok key.remainders? := by
  obtain ⟨hfirst, hsecond, -⟩ := key.isPrivate
  rw [computeRemainders, remainderByOrder_eq hfirst, remainderByOrder_eq hsecond, remainders?]
  cases Modular.inverse? key.second key.first <;> rfl

end PrivateKey

end SigningKeys.Rsa
