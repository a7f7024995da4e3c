import SigningKeys.Proofs.Number.Modular
import SigningKeys.Rsa.Key

/-!
# The numbers of RSA keys

Which numbers make up a key, how large they are, and when the numbers exist that speed up signing
(`PrivateKey.isSome_remainders?_iff`).
-/

namespace SigningKeys

namespace Rsa

/-- The numbers of a public key make it up, and no others do. -/
theorem PublicKey.ofNumbers?_eq_some_iff {modulus exponent : Nat} {key : PublicKey} :
    ofNumbers? modulus exponent = some key ↔ key.modulus = modulus ∧ key.exponent = exponent := by
  constructor
  · intro h
    unfold ofNumbers? at h
    split at h
    · cases h
      exact ⟨rfl, rfl⟩
    · cases h
  · rintro ⟨rfl, rfl⟩
    exact dif_pos key.isPublic

/-- A secret exponent may be any of those that are the same modulo each prime less one. -/
theorem IsPrivate.add {modulus exponent secret first second extra : Nat}
    (h : IsPrivate modulus exponent secret first second) (hfirst : first - 1 ∣ extra)
    (hsecond : second - 1 ∣ extra) :
    IsPrivate modulus exponent (secret + extra) first second := by
  have hkept : ∀ divisor, divisor ∣ extra →
      exponent * (secret + extra) % divisor = exponent * secret % divisor := by
    rintro divisor ⟨factor, rfl⟩
    rw [Nat.mul_add, Nat.mul_left_comm, Nat.add_mul_mod_self_left]
  obtain ⟨hfirstGt, hsecondGt, hmodulus, hfirstInverse, hsecondInverse⟩ := h
  exact ⟨hfirstGt, hsecondGt, hmodulus, (hkept _ hfirst).trans hfirstInverse,
    (hkept _ hsecond).trans hsecondInverse⟩

namespace PrivateKey

/-- The numbers of a private key make it up, and no others do. -/
theorem ofNumbers?_eq_some_iff {modulus exponent secret first second : Nat} {key : PrivateKey} :
    ofNumbers? modulus exponent secret first second = some key ↔
      key.publicKey.modulus = modulus ∧ key.publicKey.exponent = exponent ∧
        key.secret = secret ∧ key.first = first ∧ key.second = second := by
  simp only [ofNumbers?, Option.bind_eq_bind, Option.bind_eq_some_iff,
    PublicKey.ofNumbers?_eq_some_iff]
  constructor
  · rintro ⟨publicKey, ⟨rfl, rfl⟩, h⟩
    split at h
    · cases h
      exact ⟨rfl, rfl, rfl, rfl, rfl⟩
    · cases h
  · rintro ⟨rfl, rfl, rfl, rfl, rfl⟩
    exact ⟨key.publicKey, ⟨rfl, rfl⟩, dif_pos key.isPrivate⟩

variable {key : PrivateKey} {remainders : Remainders}

/-- The remainders of a key, and the inverse that they come with. -/
theorem remainders?_eq_some_iff :
    key.remainders? = some remainders ↔
      remainders.first = key.secret % (key.first - 1) ∧
        remainders.second = key.secret % (key.second - 1) ∧
        Modular.inverse? key.second key.first = some remainders.coefficient := by
  obtain ⟨first, second, coefficient⟩ := remainders
  simp only [remainders?, Option.bind_eq_bind, Option.bind_eq_some_iff, Option.some.injEq,
    Remainders.mk.injEq]
  constructor
  · rintro ⟨_, hinverse, rfl, rfl, rfl⟩
    exact ⟨rfl, rfl, hinverse⟩
  · rintro ⟨rfl, rfl, hinverse⟩
    exact ⟨_, hinverse, rfl, rfl, rfl⟩

/-- A key has remainders exactly when its primes share no factor. -/
theorem isSome_remainders?_iff (key : PrivateKey) :
    key.remainders?.isSome ↔ Nat.Coprime key.first key.second := by
  have hsome : key.remainders?.isSome = (Modular.inverse? key.second key.first).isSome := by
    unfold remainders?
    cases Modular.inverse? key.second key.first <;> rfl
  rw [hsome, Modular.isSome_inverse?_iff, Nat.coprime_comm]

/-- The primes of a key are no greater than its modulus. -/
theorem le_modulus (key : PrivateKey) :
    key.first ≤ key.publicKey.modulus ∧ key.second ≤ key.publicKey.modulus := by
  obtain ⟨hfirst, hsecond, hmodulus, -⟩ := key.isPrivate
  rw [← hmodulus]
  exact ⟨Nat.le_mul_of_pos_right _ (by omega), Nat.le_mul_of_pos_left _ (by omega)⟩

/-- The remainders of a key are below its modulus. -/
theorem remainders_lt_modulus (h : key.remainders? = some remainders) :
    remainders.first < key.publicKey.modulus ∧ remainders.second < key.publicKey.modulus ∧
      remainders.coefficient < key.publicKey.modulus := by
  obtain ⟨hfirst, hsecond, hcoefficient⟩ := remainders?_eq_some_iff.1 h
  have hfirstPos := key.isPrivate.1
  have hsecondPos := key.isPrivate.2.1
  obtain ⟨hfirstLe, hsecondLe⟩ := key.le_modulus
  have hinverse := Modular.inverse?_lt (by omega) hcoefficient
  have hfirstLt := Nat.mod_lt key.secret (show key.first - 1 > 0 by omega)
  have hsecondLt := Nat.mod_lt key.secret (show key.second - 1 > 0 by omega)
  omega

end PrivateKey

end Rsa

/-- An RSA key with the common exponent and a modulus of 17 bits. -/
def smallKey : Rsa.PrivateKey where
  publicKey := ⟨67591, 65537, by decide⟩
  secret := 29953
  first := 257
  second := 263
  isPrivate := by decide

/-- The text of the public half of the small key. -/
def smallPublicText : String := "MB4wDQYJKoZIhvcNAQEBBQADDQAwCgIDAQgHAgMBAAE="

/-- The text of the small key. -/
def smallPrivateText : String :=
  "MDgCAQAwDQYJKoZIhvcNAQEBBQAEJDAiAgEAAgMBCAcCAwEAAQICdQECAgEBAgIBBwIBAQIBVQIBKw=="

end SigningKeys
