import SigningKeys.Key.Basic
import SigningKeys.Rsa.Generation

/-!
# Key pair generators

A generator makes key pairs of one kind out of random bytes, or fails. RSA generators are made for
modulus sizes from `minModulusBits` to `maxModulusBits` only.
-/

namespace SigningKeys

/-- A source of key pairs of one kind. -/
structure Generator where
  algorithm : Algorithm
  generate : Entropy → Except Error KeyPair

namespace Generator

/-- How many random bytes the largest key takes. -/
def entropyBytes : Nat := 1024

/-- The pair of a key that was drawn, if one was. -/
def drawn (algorithm : Algorithm) : Option PrivateKey → Except Error KeyPair
  | some key => .ok (.ofPrivate key)
  | none => .error (.generationUnavailable algorithm.tag "no key found")

/-- The generator of keys on the curve P-256. -/
def ec : Generator where
  algorithm := .ec
  generate entropy := drawn .ec ((P256.SecretKey.draw? entropy).map .ec)

/-- The generator of RSA keys with moduli of a permitted size. -/
def rsa (bits : Nat) : Except Error Generator :=
  if minModulusBits ≤ bits ∧ bits ≤ maxModulusBits then
    .ok
      { algorithm := .rsa
        generate := fun entropy ↦ drawn .rsa ((Rsa.PrivateKey.draw? bits entropy).map .rsa) }
  else .error (.configuration (.modulusSize bits))

/-- The generator that never has a key to hand out, for a reason. -/
def unavailable (algorithm : Algorithm) (reason : String) : Generator where
  algorithm := algorithm
  generate _ := .error (.generationUnavailable algorithm.tag reason)

end Generator

end SigningKeys
