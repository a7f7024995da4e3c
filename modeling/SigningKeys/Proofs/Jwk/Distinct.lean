import SigningKeys.Proofs.Jwk.Build
import SigningKeys.Proofs.Jwk.Reading
import SigningKeys.Proofs.Key.PrivateText

/-!
# Different keys have different objects

The keys that a JSON Web Key is built of can be recovered from it (`JwkKey.keys?`), and the JSON Web
Key from its object. So two objects are the same only if they belong to the same key under the same
id, whether they are for signing or for verifying. The main statement is `Jwk.sameObject_iff`.
-/

namespace SigningKeys

open Json

/-! ## The keys of key material -/

/-- The private half, if there is one, belongs to the public one. -/
def Belongs (publicKey : PublicKey) (privateKey : Option PrivateKey) : Prop :=
  ∀ key ∈ privateKey, key.publicKey = publicKey

/-- Halves that belong together are of one kind. -/
theorem Belongs.areOfKind {publicKey : PublicKey} {privateKey : Option PrivateKey}
    (h : Belongs publicKey privateKey) : AreOfKind publicKey.algorithm publicKey privateKey := by
  refine ⟨rfl, fun key hmem ↦ ?_⟩
  rw [← h key hmem, PrivateKey.algorithm_publicKey]

/-- The private half of a pair belongs to the public one. -/
theorem KeyPair.belongs (pair : KeyPair) : Belongs pair.publicKey (some pair.privateKey) := by
  rintro _ ⟨⟩
  exact pair.paired

/-- The private key that the private members of an RSA key with a modulus stand for. -/
def RsaMembers.privateKey? (modulus : Nat) (secret : RsaMembers) : Option Rsa.PrivateKey := do
  let first ← secret.p
  let second ← secret.q
  Rsa.PrivateKey.ofNumbers? modulus Rsa.commonExponent (BigEndian.toNat secret.d)
    (BigEndian.toNat first) (BigEndian.toNat second)

/-- The keys that key material stands for, if it stands for any; those of an RSA key have the common
exponent. -/
def JwkKey.keys? : JwkKey → Option (PublicKey × Option PrivateKey)
  | .ec x y d => do
      let point ← P256.Point.ofCoordinates? (BigEndian.toNat x) (BigEndian.toNat y)
      match d with
      | none => some (.ec point, none)
      | some scalar => do
          let secret ← P256.SecretKey.ofBytes? scalar
          some (.ec point, some (.ec secret))
  | .rsa n secret => do
      let key ← Rsa.PublicKey.ofNumbers? (BigEndian.toNat n) Rsa.commonExponent
      match secret with
      | none => some (.rsa key, none)
      | some members => do
          let secret ← members.privateKey? (BigEndian.toNat n)
          some (.rsa key, some (.rsa secret))
  | .shared _ => none

/-- An RSA key with the common exponent is found from its modulus. -/
theorem Rsa.PublicKey.ofNumbers?_commonExponent {key : PublicKey}
    (h : key.exponent = commonExponent) : ofNumbers? key.modulus commonExponent = some key :=
  ofNumbers?_eq_some_iff.2 ⟨rfl, h⟩

/-- A private RSA key with the common exponent is found from its modulus and its members. -/
theorem RsaMembers.privateKey?_ofKey {key : Rsa.PrivateKey}
    (h : key.publicKey.exponent = Rsa.commonExponent) :
    (ofKey key).privateKey? key.publicKey.modulus = some key := by
  have hnumbers := Rsa.PrivateKey.ofNumbers?_eq_some_iff.2 ⟨rfl, h, rfl, rfl, rfl⟩
  simpa [privateKey?, ofKey, BigEndian.toNat_shortest] using hnumbers

/-- Key material stands for the keys that it is made of. -/
theorem JwkKey.keys?_of_ofKeys {publicKey : PublicKey} {privateKey : Option PrivateKey}
    {key : JwkKey} (hbelongs : Belongs publicKey privateKey)
    (h : ofKeys publicKey privateKey = .ok key) : key.keys? = some (publicKey, privateKey) := by
  rcases ofKeys_cases h with
    ⟨point, secret, rfl, rfl, rfl⟩ | ⟨numbers, secret, rfl, rfl, hexponent, rfl⟩
  · cases secret with
    | none => simp [ofEc, keys?, point.toNat_padded, point.ofCoordinates?_self]
    | some secret =>
        simp [ofEc, keys?, point.toNat_padded, point.ofCoordinates?_self, secret.ofBytes?_bytes]
  · have hnumbers := Rsa.PublicKey.ofNumbers?_commonExponent hexponent
    cases secret with
    | none => simp [keys?, BigEndian.toNat_shortest, hnumbers]
    | some secret =>
        obtain rfl : secret.publicKey = numbers := PublicKey.rsa.inj (hbelongs _ rfl)
        simp [keys?, BigEndian.toNat_shortest, hnumbers, RsaMembers.privateKey?_ofKey hexponent]

/-- The coordinates and scalars in key material have their fixed length. -/
theorem JwkKey.isSized_of_ofKeys {publicKey : PublicKey} {privateKey : Option PrivateKey}
    {key : JwkKey} (h : ofKeys publicKey privateKey = .ok key) : key.IsSized := by
  rcases ofKeys_cases h with ⟨point, secret, -, -, rfl⟩ | ⟨numbers, secret, -, -, -, rfl⟩
  · refine ⟨BigEndian.length_padded _ _, BigEndian.length_padded _ _, fun scalar hmem ↦ ?_⟩
    obtain ⟨secret, -, rfl⟩ := Option.map_eq_some_iff.1 hmem
    exact secret.length_bytes
  · trivial

/-! ## The keys of an object -/

namespace Jwk

variable {keyId otherId : String} {jwk otherJwk : Jwk}

/-- A key that was built is read from its object, has the id that it was built with, and stands for
the halves that it was built of. -/
theorem ofJson?_of_ofKeys {publicKey : PublicKey} {privateKey : Option PrivateKey}
    (hbelongs : Belongs publicKey privateKey)
    (h : ofKeys keyId publicKey.algorithm publicKey privateKey = .ok jwk) :
    ofJson? jwk.toJson = some jwk ∧ jwk.keyId = some keyId ∧
      jwk.key.keys? = some (publicKey, privateKey) := by
  rw [hbelongs.areOfKind.ofKeys_eq] at h
  cases hmaterial : JwkKey.ofKeys publicKey privateKey with
  | error error =>
      rw [hmaterial] at h
      cases h
  | ok key =>
      rw [hmaterial] at h
      cases h
      exact ⟨ofJson?_signature (JwkKey.isSized_of_ofKeys hmaterial) keyId _, rfl,
        JwkKey.keys?_of_ofKeys hbelongs hmaterial⟩

/-- The same object belongs to the same halves under the same id. -/
theorem eq_of_sameObject {publicKey otherPublic : PublicKey}
    {privateKey otherPrivate : Option PrivateKey} (hbelongs : Belongs publicKey privateKey)
    (hother : Belongs otherPublic otherPrivate)
    (h : ofKeys keyId publicKey.algorithm publicKey privateKey = .ok jwk)
    (h' : ofKeys otherId otherPublic.algorithm otherPublic otherPrivate = .ok otherJwk)
    (hsame : jwk.toJson.SameObject otherJwk.toJson) :
    keyId = otherId ∧ publicKey = otherPublic ∧ privateKey = otherPrivate := by
  obtain ⟨hread, hkeyId, hkeys⟩ := ofJson?_of_ofKeys hbelongs h
  obtain ⟨hotherRead, hotherId, hotherKeys⟩ := ofJson?_of_ofKeys hother h'
  have hjwk : some jwk = some otherJwk := by
    rw [← hread, ofJson?_of_sameObject hsame, hotherRead]
  cases hjwk
  have hid : some keyId = some otherId := hkeyId.symm.trans hotherId
  have hhalves : some (publicKey, privateKey) = some (otherPublic, otherPrivate) :=
    hkeys.symm.trans hotherKeys
  cases hid
  cases hhalves
  exact ⟨rfl, rfl, rfl⟩

/-- The same key under the same id is built into the same object. -/
theorem sameObject_of_eq {build : Except Error Jwk} (h : build = .ok jwk)
    (h' : build = .ok otherJwk) : jwk.toJson.SameObject otherJwk.toJson := by
  cases h.symm.trans h'
  exact List.Perm.refl _

/-- Two pairs, or two public keys, are built into the same object exactly when they are the same and
their ids are the same. -/
theorem sameObject_iff :
    (∀ (keyId otherId : String) (pair other : KeyPair) (jwk otherJwk : Jwk),
      ofPair keyId pair = .ok jwk → ofPair otherId other = .ok otherJwk →
        (jwk.toJson.SameObject otherJwk.toJson ↔ keyId = otherId ∧ pair = other)) ∧
    ∀ (keyId otherId : String) (key other : PublicKey) (jwk otherJwk : Jwk),
      ofPublic keyId key = .ok jwk → ofPublic otherId other = .ok otherJwk →
        (jwk.toJson.SameObject otherJwk.toJson ↔ keyId = otherId ∧ key = other) := by
  constructor
  · intro keyId otherId pair other jwk otherJwk h h'
    constructor
    · intro hsame
      obtain ⟨rfl, hpublic, hprivate⟩ := eq_of_sameObject pair.belongs other.belongs h h' hsame
      obtain ⟨publicKey, privateKey, _⟩ := pair
      obtain ⟨otherPublic, otherPrivate, _⟩ := other
      cases hpublic
      cases hprivate
      exact ⟨rfl, rfl⟩
    · rintro ⟨rfl, rfl⟩
      exact sameObject_of_eq h h'
  · intro keyId otherId key other jwk otherJwk h h'
    constructor
    · intro hsame
      obtain ⟨rfl, rfl, -⟩ := eq_of_sameObject (by simp [Belongs]) (by simp [Belongs]) h h' hsame
      exact ⟨rfl, rfl⟩
    · rintro ⟨rfl, rfl⟩
      exact sameObject_of_eq h h'

/-- The small key with its primes in the other order. -/
def swappedKey : Rsa.PrivateKey where
  publicKey := smallKey.publicKey
  secret := smallKey.secret
  first := smallKey.second
  second := smallKey.first
  isPrivate := by decide

/-- The small key is published as the same object whichever prime comes first, but signs as another
one. -/
theorem sameObject_iff_small :
    let pair := KeyPair.ofPrivate (.rsa smallKey)
    let swapped := KeyPair.ofPrivate (.rsa swappedKey)
    (∃ jwk otherJwk, ofPair "small" pair = .ok jwk ∧ ofPair "small" swapped = .ok otherJwk ∧
      ¬ jwk.toJson.SameObject otherJwk.toJson) ∧
    ∃ jwk otherJwk, ofPublic "small" pair.publicKey = .ok jwk ∧
      ofPublic "small" swapped.publicKey = .ok otherJwk ∧
        jwk.toJson.SameObject otherJwk.toJson := by
  intro pair swapped
  obtain ⟨hpairs, hpublic⟩ := sameObject_iff
  constructor
  · obtain ⟨jwk, hjwk⟩ : ∃ jwk, ofPair "small" pair = .ok jwk := exists_ofPair_iff.2 rfl
    obtain ⟨otherJwk, hother⟩ : ∃ jwk, ofPair "small" swapped = .ok jwk := exists_ofPair_iff.2 rfl
    refine ⟨jwk, otherJwk, hjwk, hother, fun hsame ↦ ?_⟩
    have heq := ((hpairs _ _ _ _ _ _ hjwk hother).1 hsame).2
    have hne : pair ≠ swapped := by decide
    exact hne heq
  · obtain ⟨jwk, hjwk⟩ : ∃ jwk, ofPublic "small" pair.publicKey = .ok jwk :=
      exists_ofPublic_iff.2 rfl
    obtain ⟨otherJwk, hother⟩ : ∃ jwk, ofPublic "small" swapped.publicKey = .ok jwk :=
      exists_ofPublic_iff.2 rfl
    have hsame : pair.publicKey = swapped.publicKey := by decide
    exact ⟨jwk, otherJwk, hjwk, hother, (hpublic _ _ _ _ _ _ hjwk hother).2 ⟨rfl, hsame⟩⟩

end Jwk

end SigningKeys
