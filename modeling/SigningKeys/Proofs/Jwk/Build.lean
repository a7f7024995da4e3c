import Mathlib.Control.Monad.Basic
import SigningKeys.Jwk.Build
import SigningKeys.Proofs.Key.Kind
import SigningKeys.Proofs.Rsa.Key

/-!
# Building from texts is reading and then building

A JSON Web Key is built out of key texts by asking the envelopes for their kinds, comparing these,
reading the keys, and pairing them. The main statement, `ofTexts_agrees_with_decode`, says that this
comes to the same as reading the keys first and building from them: the questions in front turn away
no key that can be read and let no other pass.
-/

namespace SigningKeys

/-! ## Steps that may fail -/

/-- A step and what follows it succeed when both do. -/
theorem bind_eq_ok_iff {ε α β : Type} {step : Except ε α} {next : α → Except ε β} {result : β} :
    (step >>= next) = .ok result ↔ ∃ value, step = .ok value ∧ next value = .ok result := by
  cases step with
  | error error => simp [bind, Except.bind]
  | ok value => simp [bind, Except.bind]

/-- A step and what follows it fail when one of the two does, and with its error. -/
theorem bind_eq_error_iff {ε α β : Type} {step : Except ε α} {next : α → Except ε β} {error : ε} :
    (step >>= next) = .error error ↔
      step = .error error ∨ ∃ value, step = .ok value ∧ next value = .error error := by
  cases step with
  | error found => simp [bind, Except.bind]
  | ok value => simp [bind, Except.bind]

/-- A kind is as expected when it is known and the same. -/
theorem expectAlgorithm_eq_ok_iff {expected : Algorithm} {actual : Option Algorithm}
    {result : Unit} : expectAlgorithm expected actual = .ok result ↔ actual = some expected := by
  cases actual with
  | none => simp [expectAlgorithm]
  | some actual => simp [expectAlgorithm]

/-- Every kind is as expected when it is expected itself. -/
@[simp]
theorem expectAlgorithm_self (algorithm : Algorithm) :
    expectAlgorithm algorithm (some algorithm) = .ok () :=
  expectAlgorithm_eq_ok_iff.2 rfl

/-! ## Pairs -/

namespace KeyPair

/-- The private half of a pair is of the kind of the pair. -/
theorem algorithm_privateKey (pair : KeyPair) : pair.privateKey.algorithm = pair.algorithm := by
  rw [algorithm, ← pair.paired, PrivateKey.algorithm_publicKey]

/-- Two halves make up the pair that has these halves, if there is one. -/
theorem ofHalves_eq_ok_iff {publicKey : PublicKey} {privateKey : PrivateKey} {pair : KeyPair} :
    ofHalves publicKey privateKey = .ok pair ↔
      publicKey = pair.publicKey ∧ privateKey = pair.privateKey := by
  constructor
  · intro h
    unfold ofHalves at h
    split at h
    · cases h
    · split at h
      · cases h
        exact ⟨rfl, rfl⟩
      · cases h
  · rintro ⟨rfl, rfl⟩
    obtain ⟨publicKey, privateKey, rfl⟩ := pair
    simp [ofHalves]

/-- A pair is read when both of its halves are. -/
theorem decode_eq_ok_iff {publicText privateText : String} {algorithm : Algorithm}
    {pair : KeyPair} :
    decode publicText privateText algorithm = .ok pair ↔
      PublicKey.decode publicText algorithm = .ok pair.publicKey ∧
        PrivateKey.decode privateText algorithm = .ok pair.privateKey := by
  simp only [decode, bind_eq_ok_iff, ofHalves_eq_ok_iff]
  constructor
  · rintro ⟨_, hpublic, _, hprivate, rfl, rfl⟩
    exact ⟨hpublic, hprivate⟩
  · rintro ⟨hpublic, hprivate⟩
    exact ⟨_, hpublic, _, hprivate, rfl, rfl⟩

end KeyPair

/-! ## Key material -/

/-- The key has no exponent, or the one that JSON Web Keys are built with. -/
def PublicKey.HasCommonExponent : PublicKey → Prop
  | .ec _ => True
  | .rsa key => key.exponent = Rsa.commonExponent

/-- Every half is of the stated kind. -/
def AreOfKind (algorithm : Algorithm) (publicKey : PublicKey) (privateKey : Option PrivateKey) :
    Prop :=
  publicKey.algorithm = algorithm ∧ ∀ key ∈ privateKey, key.algorithm = algorithm

/-- A public key alone is of its own kind. -/
theorem PublicKey.areOfKind (key : PublicKey) : AreOfKind key.algorithm key none :=
  ⟨rfl, by simp⟩

/-- Both halves of a pair are of its kind. -/
theorem KeyPair.areOfKind (pair : KeyPair) :
    AreOfKind pair.algorithm pair.publicKey (some pair.privateKey) :=
  ⟨rfl, by simpa using pair.algorithm_privateKey⟩

/-- RSA key material is made of the numbers of a key with the common exponent. -/
theorem JwkKey.ofRsa_eq_ok_iff {key : Rsa.PublicKey} {secret : Option Rsa.PrivateKey}
    {material : JwkKey} :
    ofRsa key secret = .ok material ↔
      key.exponent = Rsa.commonExponent ∧
        .rsa (BigEndian.shortest key.modulus) (secret.map RsaMembers.ofKey) = material := by
  by_cases h : key.exponent = Rsa.commonExponent <;> simp [ofRsa, h]

/-- RSA key material is not made of a key with another exponent. -/
theorem JwkKey.ofRsa_eq_error_iff {key : Rsa.PublicKey} {secret : Option Rsa.PrivateKey}
    {error : Error} :
    ofRsa key secret = .error error ↔
      key.exponent ≠ Rsa.commonExponent ∧ .ofKey .rsa .foreignExponent = error := by
  by_cases h : key.exponent = Rsa.commonExponent <;> simp [ofRsa, h]

/-- Key material is made of a point and perhaps a secret key, or of the numbers of an RSA key with
the common exponent and perhaps a private key. -/
theorem JwkKey.ofKeys_cases {publicKey : PublicKey} {privateKey : Option PrivateKey}
    {material : JwkKey} (h : ofKeys publicKey privateKey = .ok material) :
    (∃ (point : P256.Point) (secret : Option P256.SecretKey), publicKey = .ec point ∧
      privateKey = secret.map .ec ∧ ofEc point secret = material) ∨
    ∃ (key : Rsa.PublicKey) (secret : Option Rsa.PrivateKey), publicKey = .rsa key ∧
      privateKey = secret.map .rsa ∧ key.exponent = Rsa.commonExponent ∧
        .rsa (BigEndian.shortest key.modulus) (secret.map RsaMembers.ofKey) = material := by
  match publicKey, privateKey with
  | .ec point, none => exact .inl ⟨point, none, rfl, rfl, Except.ok.inj h⟩
  | .ec point, some (.ec secret) => exact .inl ⟨point, some secret, rfl, rfl, Except.ok.inj h⟩
  | .rsa key, none => exact .inr ⟨key, none, rfl, rfl, ofRsa_eq_ok_iff.1 h⟩
  | .rsa key, some (.rsa secret) => exact .inr ⟨key, some secret, rfl, rfl, ofRsa_eq_ok_iff.1 h⟩
  | .ec _, some (.rsa _) => cases h
  | .rsa _, some (.ec _) => cases h

namespace AreOfKind

variable {algorithm : Algorithm} {publicKey : PublicKey} {privateKey : Option PrivateKey}

/-- Key material is made of halves of one kind exactly when the exponent is the common one. -/
theorem exists_material_iff (h : AreOfKind algorithm publicKey privateKey) :
    (∃ material, JwkKey.ofKeys publicKey privateKey = .ok material) ↔
      publicKey.HasCommonExponent := by
  obtain ⟨hpublic, hprivate⟩ := h
  match publicKey, privateKey with
  | .ec _, none => simp [JwkKey.ofKeys, PublicKey.HasCommonExponent]
  | .ec _, some (.ec _) => simp [JwkKey.ofKeys, PublicKey.HasCommonExponent]
  | .rsa _, none => simp [JwkKey.ofKeys, JwkKey.ofRsa_eq_ok_iff, PublicKey.HasCommonExponent]
  | .rsa _, some (.rsa _) =>
      simp [JwkKey.ofKeys, JwkKey.ofRsa_eq_ok_iff, PublicKey.HasCommonExponent]
  | .ec _, some (.rsa _) => cases hpublic.trans (hprivate _ rfl).symm
  | .rsa _, some (.ec _) => cases hpublic.trans (hprivate _ rfl).symm

/-- Otherwise the exponent is what is wrong. -/
theorem material_eq_error_iff (h : AreOfKind algorithm publicKey privateKey) {error : Error} :
    JwkKey.ofKeys publicKey privateKey = .error error ↔
      ¬ publicKey.HasCommonExponent ∧ .ofKey .rsa .foreignExponent = error := by
  obtain ⟨hpublic, hprivate⟩ := h
  match publicKey, privateKey with
  | .ec _, none => simp [JwkKey.ofKeys, PublicKey.HasCommonExponent]
  | .ec _, some (.ec _) => simp [JwkKey.ofKeys, PublicKey.HasCommonExponent]
  | .rsa _, none => exact JwkKey.ofRsa_eq_error_iff
  | .rsa _, some (.rsa _) => exact JwkKey.ofRsa_eq_error_iff
  | .ec _, some (.rsa _) => cases hpublic.trans (hprivate _ rfl).symm
  | .rsa _, some (.ec _) => cases hpublic.trans (hprivate _ rfl).symm

/-- A key is built of the key material of its halves. -/
theorem ofKeys_eq (h : AreOfKind algorithm publicKey privateKey) (keyId : String) :
    Jwk.ofKeys keyId algorithm publicKey privateKey =
      (JwkKey.ofKeys publicKey privateKey).map (Jwk.signature keyId algorithm) := by
  obtain ⟨hpublic, hprivate⟩ := h
  cases privateKey with
  | none =>
      simp only [Jwk.ofKeys, hpublic, expectAlgorithm_self]
      cases JwkKey.ofKeys publicKey none <;> rfl
  | some key =>
      simp only [Jwk.ofKeys, hpublic, hprivate key rfl, expectAlgorithm_self]
      cases JwkKey.ofKeys publicKey (some key) <;> rfl

/-- A key is built exactly when the exponent is the common one. -/
theorem exists_ofKeys_iff (h : AreOfKind algorithm publicKey privateKey) {keyId : String} :
    (∃ jwk, Jwk.ofKeys keyId algorithm publicKey privateKey = .ok jwk) ↔
      publicKey.HasCommonExponent := by
  rw [h.ofKeys_eq, ← h.exists_material_iff]
  cases JwkKey.ofKeys publicKey privateKey <;> simp [Except.map]

end AreOfKind

/-! ## Keys -/

namespace Jwk

variable {keyId publicText privateText : String} {algorithm : Algorithm} {jwk : Jwk}

/-- A key for verifying is built of its key material. -/
theorem ofPublic_eq (keyId : String) (key : PublicKey) :
    ofPublic keyId key = (JwkKey.ofKeys key none).map (signature keyId key.algorithm) :=
  key.areOfKind.ofKeys_eq keyId

/-- A key for signing is built of its key material. -/
theorem ofPair_eq (keyId : String) (pair : KeyPair) :
    ofPair keyId pair =
      (JwkKey.ofKeys pair.publicKey (some pair.privateKey)).map
        (signature keyId pair.algorithm) :=
  pair.areOfKind.ofKeys_eq keyId

/-- A key for verifying is built exactly when the exponent is the common one. -/
theorem exists_ofPublic_iff {key : PublicKey} :
    (∃ jwk, ofPublic keyId key = .ok jwk) ↔ key.HasCommonExponent :=
  key.areOfKind.exists_ofKeys_iff

/-- A key for signing is built exactly when the exponent is the common one. -/
theorem exists_ofPair_iff {pair : KeyPair} :
    (∃ jwk, ofPair keyId pair = .ok jwk) ↔ pair.publicKey.HasCommonExponent :=
  pair.areOfKind.exists_ofKeys_iff

/-! ## Keys from texts -/

/-- From a public text that can be read a key is built as from the public key. -/
theorem ofTexts_of_decode {key : PublicKey} (h : PublicKey.decode publicText algorithm = .ok key) :
    ofTexts keyId publicText none algorithm = ofPublic keyId key := by
  simp only [ofTexts, PublicKey.detect_of_decode h, h, bind, Except.bind, expectAlgorithm_self]
  rw [ofPublic, PublicKey.algorithm_of_decode h]

/-- From two texts that can be read as a pair a key is built as from the pair. -/
theorem ofTexts_of_decode_pair {pair : KeyPair}
    (h : KeyPair.decode publicText privateText algorithm = .ok pair) :
    ofTexts keyId publicText (some privateText) algorithm = ofPair keyId pair := by
  obtain ⟨hpublic, hprivate⟩ := KeyPair.decode_eq_ok_iff.1 h
  have hpair : KeyPair.ofHalves pair.publicKey pair.privateKey = .ok pair :=
    KeyPair.ofHalves_eq_ok_iff.2 ⟨rfl, rfl⟩
  simp only [ofTexts, PublicKey.detect_of_decode hpublic, hpublic,
    PrivateKey.detect_of_decode hprivate, hprivate, hpair, bind, Except.bind,
    expectAlgorithm_self]

/-- A key for verifying is built of a public text only if this can be read. -/
theorem exists_decode_of_ofTexts (h : ofTexts keyId publicText none algorithm = .ok jwk) :
    ∃ key, PublicKey.decode publicText algorithm = .ok key := by
  simp only [ofTexts, bind_eq_ok_iff] at h
  obtain ⟨_, _, _, _, key, hkey, _⟩ := h
  exact ⟨key, hkey⟩

/-- A key for signing is built of two texts only if these can be read as a pair. -/
theorem exists_decode_pair_of_ofTexts
    (h : ofTexts keyId publicText (some privateText) algorithm = .ok jwk) :
    ∃ pair, KeyPair.decode publicText privateText algorithm = .ok pair := by
  simp only [ofTexts, bind_eq_ok_iff] at h
  obtain ⟨_, _, _, _, publicKey, hpublic, _, _, _, _, privateKey, hprivate, pair, hpair, _⟩ := h
  obtain ⟨rfl, rfl⟩ := KeyPair.ofHalves_eq_ok_iff.1 hpair
  exact ⟨pair, KeyPair.decode_eq_ok_iff.2 ⟨hpublic, hprivate⟩⟩

/-- A key is built of texts exactly when they can be read, as a pair if there are two of them, and
the exponent is the common one; it is then the key that is built from what was read. The kind that
the envelope of a text names is the declared one whenever the text can be read. -/
theorem ofTexts_agrees_with_decode (keyId publicText : String) (algorithm : Algorithm) :
    (∀ privateText,
      ((∃ jwk, ofTexts keyId publicText (some privateText) algorithm = .ok jwk) ↔
        ∃ pair, KeyPair.decode publicText privateText algorithm = .ok pair ∧
          pair.publicKey.HasCommonExponent) ∧
      (∀ pair, KeyPair.decode publicText privateText algorithm = .ok pair →
        ofTexts keyId publicText (some privateText) algorithm = ofPair keyId pair) ∧
      ∀ key, PrivateKey.decode privateText algorithm = .ok key →
        PrivateKey.detect privateText algorithm = .ok (some algorithm)) ∧
    ((∃ jwk, ofTexts keyId publicText none algorithm = .ok jwk) ↔
      ∃ key, PublicKey.decode publicText algorithm = .ok key ∧ key.HasCommonExponent) ∧
    ∀ key, PublicKey.decode publicText algorithm = .ok key →
      ofTexts keyId publicText none algorithm = ofPublic keyId key ∧
        PublicKey.detect publicText algorithm = .ok (some algorithm) := by
  refine ⟨fun privateText ↦ ⟨?_, fun pair hpair ↦ ofTexts_of_decode_pair hpair,
    fun key hkey ↦ PrivateKey.detect_of_decode hkey algorithm⟩, ?_,
    fun key hkey ↦ ⟨ofTexts_of_decode hkey, PublicKey.detect_of_decode hkey algorithm⟩⟩
  · constructor
    · rintro ⟨jwk, hjwk⟩
      obtain ⟨pair, hpair⟩ := exists_decode_pair_of_ofTexts hjwk
      rw [ofTexts_of_decode_pair hpair] at hjwk
      exact ⟨pair, hpair, exists_ofPair_iff.1 ⟨jwk, hjwk⟩⟩
    · rintro ⟨pair, hpair, hexponent⟩
      rw [ofTexts_of_decode_pair hpair]
      exact exists_ofPair_iff.2 hexponent
  · constructor
    · rintro ⟨jwk, hjwk⟩
      obtain ⟨key, hkey⟩ := exists_decode_of_ofTexts hjwk
      rw [ofTexts_of_decode hkey] at hjwk
      exact ⟨key, hkey, exists_ofPublic_iff.1 ⟨jwk, hjwk⟩⟩
    · rintro ⟨key, hkey, hexponent⟩
      rw [ofTexts_of_decode hkey]
      exact exists_ofPublic_iff.2 hexponent

/-- From the texts of the small key, the key for signing and the key for verifying are built. -/
theorem ofTexts_agrees_with_decode_small :
    let pair := KeyPair.ofPrivate (.rsa smallKey)
    KeyPair.decode smallPublicText smallPrivateText .rsa = .ok pair ∧
      PublicKey.decode smallPublicText .rsa = .ok pair.publicKey ∧
      ofTexts "small" smallPublicText (some smallPrivateText) .rsa = ofPair "small" pair ∧
      ofTexts "small" smallPublicText none .rsa = ofPublic "small" pair.publicKey ∧
      (∃ jwk, ofPair "small" pair = .ok jwk) ∧
        ∃ jwk, ofPublic "small" pair.publicKey = .ok jwk := by
  intro pair
  have hpair : KeyPair.decode smallPublicText smallPrivateText .rsa = .ok pair := by decide +kernel
  have hpublic : PublicKey.decode smallPublicText .rsa = .ok pair.publicKey :=
    (KeyPair.decode_eq_ok_iff.1 hpair).1
  obtain ⟨hprivateText, hnoneIff, hnone⟩ := ofTexts_agrees_with_decode "small" smallPublicText .rsa
  obtain ⟨hsomeIff, hsome, -⟩ := hprivateText smallPrivateText
  have hsigning := hsome pair hpair
  have hverifying := (hnone pair.publicKey hpublic).1
  refine ⟨hpair, hpublic, hsigning, hverifying, ?_, ?_⟩
  · rw [← hsigning]
    exact hsomeIff.2 ⟨pair, hpair, rfl⟩
  · rw [← hverifying]
    exact hnoneIff.2 ⟨pair.publicKey, hpublic, rfl⟩

end Jwk

end SigningKeys
