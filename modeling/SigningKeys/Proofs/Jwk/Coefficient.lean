import SigningKeys.Proofs.Jwk.Build
import SigningKeys.Proofs.Number.TwosComplement

/-!
# The coefficient of an RSA key

One private member of an RSA key is the inverse of the second factor modulo the first. It is an
integer with a sign (`Rsa.PrivateKey.coefficient?`), written in two's complement, and a byte that
holds nothing but the sign is taken away again. The main statement, `Jwk.coefficients_plain`, says
what this gives for every integer that is not negative, and that no key has a negative coefficient.
-/

namespace SigningKeys

open BigEndian

/-- The inverse of the second factor modulo the first as an integer, unless they share a factor. -/
def Rsa.PrivateKey.coefficient? (key : PrivateKey) : Option Int :=
  Modular.integerInverse? key.second key.first

/-- The member of an RSA key that holds the inverse of the second factor. -/
def JwkKey.qi? : JwkKey → Option (List UInt8)
  | .rsa _ (some secret) => secret.qi
  | _ => none

variable {key : Rsa.PrivateKey} {inverse : Int}

/-- The coefficient as an integer is the one that the remainders of a key come with. -/
theorem Rsa.PrivateKey.coefficient?_eq (key : PrivateKey) :
    key.coefficient? = key.remainders?.map fun remainders ↦ (remainders.coefficient : Int) := by
  have hfirst := key.isPrivate.1
  rw [coefficient?, Modular.integerInverse?_eq (by omega), remainders?]
  cases Modular.inverse? key.second key.first <;> rfl

/-- The coefficient is not negative, is below the first factor, and times the second one leaves the
remainder of 1. -/
theorem Rsa.PrivateKey.coefficient?_spec (h : key.coefficient? = some inverse) :
    0 ≤ inverse ∧ inverse < key.first ∧ inverse * key.second % key.first = 1 := by
  rw [coefficient?_eq, Option.map_eq_some_iff] at h
  obtain ⟨remainders, hremainders, rfl⟩ := h
  obtain ⟨-, -, hinverse⟩ := remainders?_eq_some_iff.1 hremainders
  have hfirst := key.isPrivate.1
  have hlt := Modular.inverse?_lt (by omega) hinverse
  have hmod := Modular.inverse?_mul_mod (by omega) hinverse
  rw [Nat.mod_eq_of_lt hfirst] at hmod
  exact ⟨Int.natCast_nonneg _, Int.ofNat_lt.2 hlt, by exact_mod_cast hmod⟩

/-- The member that is made of a key is its coefficient in two's complement, without the byte that
holds nothing but the sign. -/
theorem RsaMembers.qi_ofKey (key : Rsa.PrivateKey) :
    (ofKey key).qi = key.coefficient?.map fun inverse ↦ dropSign (twosComplement inverse) := by
  rw [key.coefficient?_eq, Option.map_map]
  rfl

/-- Key material that holds an RSA key has the member that is made of that key. -/
theorem JwkKey.qi?_of_ofKeys {publicKey : PublicKey} {material : JwkKey}
    (h : ofKeys publicKey (some (.rsa key)) = .ok material) :
    material.qi? = (RsaMembers.ofKey key).qi := by
  cases publicKey with
  | ec point => cases h
  | rsa numbers =>
      obtain ⟨-, rfl⟩ := ofRsa_eq_ok_iff.1 h
      rfl

/-! ## Keys that hold a coefficient -/

namespace Jwk

/-- The key holds the integer in the fewest bytes of a plain number, which are those of its two's
complement form without the sign byte. -/
def HoldsPlain (jwk : Jwk) (inverse : Int) : Prop :=
  jwk.key.qi? = some (dropSign (twosComplement inverse)) ∧
    IsFewest toNat inverse.toNat (dropSign (twosComplement inverse))

variable {keyId publicText privateText : String} {algorithm : Algorithm} {publicKey : PublicKey}
  {jwk : Jwk}

/-- A JSON Web Key that is built with an RSA key holds its coefficient. -/
theorem holdsPlain_of_ofKeys (hinverse : key.coefficient? = some inverse)
    (h : ofKeys keyId algorithm publicKey (some (.rsa key)) = .ok jwk) :
    jwk.HoldsPlain inverse := by
  constructor
  · simp only [ofKeys, bind_eq_ok_iff] at h
    obtain ⟨_, -, _, -, material, hmaterial, hjwk⟩ := h
    cases hjwk
    show material.qi? = _
    rw [JwkKey.qi?_of_ofKeys hmaterial, RsaMembers.qi_ofKey, hinverse]
    rfl
  · obtain ⟨hnonneg, -⟩ := Rsa.PrivateKey.coefficient?_spec hinverse
    exact (isFewest_twosComplement inverse).dropSign hnonneg

/-- A JSON Web Key that is built out of texts holds the coefficient of the key that is read. -/
theorem holdsPlain_of_ofTexts (hkey : PrivateKey.decode privateText .rsa = .ok (.rsa key))
    (hinverse : key.coefficient? = some inverse)
    (h : ofTexts keyId publicText (some privateText) .rsa = .ok jwk) : jwk.HoldsPlain inverse := by
  obtain ⟨pair, hpair⟩ := exists_decode_pair_of_ofTexts h
  have hprivate := (KeyPair.decode_eq_ok_iff.1 hpair).2
  rw [ofTexts_of_decode_pair hpair, ofPair, ← Except.ok.inj (hkey.symm.trans hprivate)] at h
  exact holdsPlain_of_ofKeys hinverse h

/-- Without its sign byte, the shortest two's complement form of an integer that is not negative is
its shortest plain form. The coefficient of an RSA key that is read from a text is never negative,
and every JSON Web Key that is built with that key, or out of that text, holds the plain form. -/
theorem coefficients_plain :
    (∀ n : Int, ∃ bytes, IsFewest toInt n bytes) ∧
    (∀ n : Int, 0 ≤ n → ∀ bytes, IsFewest toInt n bytes →
      IsFewest toNat n.toNat (dropSign bytes) ∧ IsShortest (dropSign bytes)) ∧
    ∀ privateText key, PrivateKey.decode privateText .rsa = .ok (.rsa key) →
      ∀ inverse, key.coefficient? = some inverse →
        0 ≤ inverse ∧ inverse < key.first ∧ inverse * key.second % key.first = 1 ∧
        (∀ keyId algorithm publicKey jwk,
          ofKeys keyId algorithm publicKey (some (.rsa key)) = .ok jwk → jwk.HoldsPlain inverse) ∧
        ∀ keyId publicText jwk,
          ofTexts keyId publicText (some privateText) .rsa = .ok jwk → jwk.HoldsPlain inverse := by
  refine ⟨fun n ↦ ⟨_, isFewest_twosComplement n⟩, fun n hn bytes hbytes ↦ ⟨hbytes.dropSign hn, ?_⟩,
    fun privateText key hkey inverse hinverse ↦ ?_⟩
  · rw [hbytes.eq_twosComplement, dropSign_twosComplement hn]
    exact isShortest_shortest n.toNat
  · obtain ⟨hnonneg, hlt, hmod⟩ := Rsa.PrivateKey.coefficient?_spec hinverse
    exact ⟨hnonneg, hlt, hmod, fun _ _ _ _ h ↦ holdsPlain_of_ofKeys hinverse h,
      fun _ _ _ h ↦ holdsPlain_of_ofTexts hkey hinverse h⟩

/-- The small key with its factors exchanged: Euclid's algorithm gives the inverse -44, which
becomes 219, and 219 takes a sign byte in two's complement. -/
theorem coefficients_plain_exchanged :
    let privateText :=
      "MDkCAQAwDQYJKoZIhvcNAQEBBQAEJTAjAgEAAgMBCAcCAwEAAQICdQECAgEHAgIBAQIBVQIBAQICANs="
    let key := { smallKey with first := 263, second := 257, isPrivate := by decide }
    PrivateKey.decode privateText .rsa = .ok (.rsa key) ∧
      (Modular.bezout (257 % 263) 263).2.1 = -44 ∧ key.coefficient? = some 219 ∧
      twosComplement 219 = [0, 219] ∧ IsFewest toNat 219 [219] ∧
      ∃ jwk, ofTexts "exchanged" smallPublicText (some privateText) .rsa = .ok jwk ∧
        jwk.HoldsPlain 219 ∧ jwk.key.qi? = some [219] := by
  intro privateText key
  have hkey : PrivateKey.decode privateText .rsa = .ok (.rsa key) := by decide +kernel
  have hinverse : key.coefficient? = some 219 := by decide +kernel
  have hform : twosComplement 219 = [0, 219] := by decide +kernel
  obtain ⟨-, hstrip, hcoefficient⟩ := coefficients_plain
  obtain ⟨-, -, -, -, htexts⟩ := hcoefficient privateText key hkey 219 hinverse
  have hfewest := (hstrip 219 (by decide) [0, 219] (hform ▸ isFewest_twosComplement 219)).1
  obtain ⟨jwk, hjwk⟩ :
      ∃ jwk, ofTexts "exchanged" smallPublicText (some privateText) .rsa = .ok jwk :=
    ⟨signature "exchanged" .rsa (.rsa [1, 8, 7] (some (RsaMembers.ofKey key))), by decide +kernel⟩
  have hholds := htexts "exchanged" smallPublicText jwk hjwk
  refine ⟨hkey, by decide +kernel, hinverse, hform, hfewest, jwk, hjwk, hholds, ?_⟩
  rw [hholds.1, hform]
  rfl

end Jwk

end SigningKeys
