import SigningKeys.Generator
import SigningKeys.Proofs.Key.Length

/-!
# What generators hand out

A generator that draws keys hands out the pair of a key that was drawn. Such a key has the size that
was asked for, and can be written (`Generator.Draws.exists_encode`).
-/

namespace SigningKeys

/-- An RSA key that is drawn has the common exponent, a modulus of the size that is asked for,
primes that share no factor, and a secret exponent below the modulus. -/
theorem Rsa.PrivateKey.of_draw? {bits : Nat} {entropy : Entropy} {key : PrivateKey}
    (h : PrivateKey.draw? bits entropy = some key) :
    key.publicKey.exponent = commonExponent ∧
      BigEndian.bitLength key.publicKey.modulus = bits ∧
      Nat.Coprime key.first key.second ∧ key.secret < key.publicKey.modulus := by
  simp only [draw?, Option.bind_eq_bind, Option.bind_eq_some_iff] at h
  obtain ⟨first, -, second, -, drawn, hdrawn, h⟩ := h
  split at h
  · next hdraw =>
      cases h
      simp only [ofPrimes?, Option.bind_eq_bind, Option.bind_eq_some_iff,
        ofNumbers?_eq_some_iff] at hdrawn
      obtain ⟨secret, hinverse, hmodulus, hexponent, rfl, rfl, rfl⟩ := hdrawn
      obtain ⟨hfirst, hsecond, -⟩ := key.isPrivate
      have hpos : 0 < (key.first - 1) * (key.second - 1) := Nat.mul_pos (by omega) (by omega)
      have hle : (key.first - 1) * (key.second - 1) ≤ key.first * key.second :=
        Nat.mul_le_mul (Nat.sub_le _ 1) (Nat.sub_le _ 1)
      have hsecret := Modular.inverse?_lt hpos hinverse
      exact ⟨hexponent, hdraw.1, key.isSome_remainders?_iff.1 hdraw.2, by omega⟩
  · simp at h

namespace Generator

variable {entropy : Entropy} {pair : KeyPair}

/-- A pair is handed out exactly when a key is drawn, and is the pair of this key. -/
theorem drawn_eq_ok_iff {algorithm : Algorithm} {key : Option PrivateKey} :
    drawn algorithm key = .ok pair ↔ ∃ privateKey, key = some privateKey ∧
      .ofPrivate privateKey = pair := by
  cases key with
  | none => simp [drawn]
  | some privateKey => simp [drawn]

/-- A pair on the curve P-256 is that of a secret scalar. -/
theorem exists_of_generate_ec (h : ec.generate entropy = .ok pair) :
    ∃ secret, .ofPrivate (.ec secret) = pair := by
  obtain ⟨privateKey, hkey, rfl⟩ := drawn_eq_ok_iff.1 h
  obtain ⟨secret, -, rfl⟩ := Option.map_eq_some_iff.1 hkey
  exact ⟨secret, rfl⟩

/-- A pair of RSA keys is that of a key of the permitted size that the generator was made for. -/
theorem exists_of_generate_rsa {bits : Nat} {generator : Generator}
    (hgenerator : rsa bits = .ok generator) (h : generator.generate entropy = .ok pair) :
    generator.algorithm = .rsa ∧ bits ≤ maxModulusBits ∧
      ∃ key, Rsa.PrivateKey.draw? bits entropy = some key ∧ .ofPrivate (.rsa key) = pair := by
  unfold rsa at hgenerator
  split at hgenerator
  · next hbits =>
      cases hgenerator
      obtain ⟨privateKey, hkey, rfl⟩ := drawn_eq_ok_iff.1 h
      obtain ⟨key, hdraw, rfl⟩ := Option.map_eq_some_iff.1 hkey
      exact ⟨rfl, hbits.2, key, hdraw, rfl⟩
  · cases hgenerator

/-- The generators that draw keys themselves. -/
inductive Draws : Generator → Prop
  | ec : Draws .ec
  | rsa {bits : Nat} {generator : Generator} (h : rsa bits = .ok generator) : Draws generator

/-- A private key that is drawn can be written. -/
theorem Draws.exists_encode {generator : Generator} (hdraws : generator.Draws)
    (h : generator.generate entropy = .ok pair) : ∃ text, pair.privateKey.encode = .ok text := by
  cases hdraws with
  | ec =>
      obtain ⟨secret, rfl⟩ := exists_of_generate_ec h
      exact PrivateKey.exists_encode not_false (PrivateKey.not_isTooLong_ec secret)
  | rsa hgenerator =>
      obtain ⟨-, hbits, key, hdraw, rfl⟩ := exists_of_generate_rsa hgenerator h
      obtain ⟨-, hsize, hcoprime, hsecret⟩ := Rsa.PrivateKey.of_draw? hdraw
      have hmodulus : key.publicKey.modulus < 256 ^ Rsa.maxModulusBytes :=
        BigEndian.lt_pow_of_bitLength_le (hsize ▸ hbits)
      exact PrivateKey.exists_encode (not_not_intro hcoprime)
        (PrivateKey.not_isTooLong_rsa (by decide) hmodulus (Nat.lt_trans hsecret hmodulus))

end Generator

end SigningKeys
