import SigningKeys.Proofs.Key.Kind
import SigningKeys.Proofs.Rsa.Arithmetic

/-!
# Finding the kind of a key and reading the key

The envelope of a key can be asked for the kind of the key, and the key can be read as one of a
kind. Both go over the same text on their own, and the main statement, `detect_agrees_with_decode`,
says that they agree on it (`Agree`), that both have one way to fail, and that nothing is computed
on the way that has no result.
-/

namespace SigningKeys

/-- Finding the kind of a key in a text and reading the key, for each kind that may be declared or
asked for, agree with each other. -/
structure Agree {Key : Type} (kind : Key → Algorithm)
    (detect : Algorithm → Except Error (Option Algorithm))
    (decode : Algorithm → Except Error Key) : Prop where
  /-- A key that is read is of the kind that was asked for. -/
  kind_eq : ∀ algorithm key, decode algorithm = .ok key → kind key = algorithm
  /-- Its kind is found, whatever kind is declared. -/
  detect_eq : ∀ algorithm key, decode algorithm = .ok key →
    ∀ declared, detect declared = .ok (some algorithm)
  /-- No key of another kind is read. -/
  kind_unique : ∀ algorithm key, decode algorithm = .ok key →
    ∀ other otherKey, decode other = .ok otherKey → other = algorithm
  /-- What is found does not depend on the kind that is declared. -/
  detect_congr : ∀ declared found, detect declared = .ok found →
    ∀ other, detect other = .ok found
  /-- Where no envelope is found, no key is read. -/
  decode_fails : ∀ declared error, detect declared = .error error →
    ∀ algorithm, ∃ other, decode algorithm = .error other
  /-- Finding the kind has one way to fail. -/
  detect_error : ∀ declared error, detect declared = .error error →
    ∃ reason, error = .ofKey declared reason
  /-- Reading has the same way to fail. -/
  decode_error : ∀ algorithm error, decode algorithm = .error error →
    ∃ reason, error = .ofKey algorithm reason

/-- Two readings of the bytes of a text agree if a key is read only from bytes in which its kind is
found. -/
theorem agree_of_bytes {Key : Type} {kind : Key → Algorithm}
    {detect : List UInt8 → Option (Option Algorithm)}
    {decode : Algorithm → List UInt8 → Option Key}
    (h : ∀ {algorithm bytes key}, decode algorithm bytes = some key →
      detect bytes = some (some algorithm) ∧ kind key = algorithm)
    (text : String) (first second : KeyPart) :
    Agree kind (fun declared ↦ readKeyText text declared first detect)
      (fun algorithm ↦ readKeyText text algorithm second (decode algorithm)) := by
  have hread : ∀ {algorithm key}, readKeyText text algorithm second (decode algorithm) = .ok key →
      kind key = algorithm ∧
        ∀ declared, readKeyText text declared first detect = .ok (some algorithm) := by
    intro algorithm key hkey
    obtain ⟨bytes, hbytes, hdecode⟩ := readKeyText_eq_ok_iff.1 hkey
    obtain ⟨hdetect, hkind⟩ := h hdecode
    exact ⟨hkind, fun declared ↦ readKeyText_eq_ok_iff.2 ⟨bytes, hbytes, hdetect⟩⟩
  refine ⟨fun _ _ hkey ↦ (hread hkey).1, fun _ _ hkey ↦ (hread hkey).2, ?_, ?_, ?_,
    fun _ _ ↦ error_of_readKeyText, fun _ _ ↦ error_of_readKeyText⟩
  · intro algorithm key hkey other otherKey hother
    have hfound := (hread hkey).2 algorithm
    rw [(hread hother).2 algorithm] at hfound
    cases hfound
    rfl
  · intro declared found hfound other
    obtain ⟨bytes, hbytes, hdetect⟩ := readKeyText_eq_ok_iff.1 hfound
    exact readKeyText_eq_ok_iff.2 ⟨bytes, hbytes, hdetect⟩
  · intro declared error hfails algorithm
    cases hdecode : readKeyText text algorithm second (decode algorithm) with
    | error other => exact ⟨other, rfl⟩
    | ok key =>
        rw [(hread hdecode).2 declared] at hfails
        cases hfails

/-- A public key is read only from bytes in which its kind is found. -/
theorem PublicKey.agree (text : String) :
    Agree algorithm (PublicKey.detect text) (PublicKey.decode text) := by
  refine agree_of_bytes (fun {_ bytes key} h ↦ ?_) text .layout .numbers
  obtain ⟨envelope, henvelope, hkey⟩ := Option.bind_eq_some_iff.1 h
  obtain ⟨hnamed, hkind⟩ := algorithm_of_ofEnvelope? hkey
  exact ⟨by simp [henvelope, hnamed], hkind⟩

/-- A private key is read only from bytes in which its kind is found. -/
theorem PrivateKey.agree (text : String) :
    Agree algorithm (PrivateKey.detect text) (PrivateKey.decode text) := by
  refine agree_of_bytes (fun {_ bytes key} h ↦ ?_) text .layout .numbers
  obtain ⟨envelope, henvelope, hkey⟩ := Option.bind_eq_some_iff.1 h
  obtain ⟨hnamed, hkind⟩ := algorithm_of_ofEnvelope? hkey
  exact ⟨by simp [henvelope, hnamed], hkind⟩

/-- On every text, finding the kind of a key and reading the key agree, for both halves of a key: a
key is read under the kind that is found and under no other, and each fails with the error that the
declared kind of key is not encoded. The numbers of a private key are tested, and its remainders are
computed, without a negative difference or a division by zero, whatever numbers the text holds. -/
theorem detect_agrees_with_decode (text : String) :
    Agree PublicKey.algorithm (PublicKey.detect text) (PublicKey.decode text) ∧
      Agree PrivateKey.algorithm (PrivateKey.detect text) (PrivateKey.decode text) ∧
      (∀ modulus exponent secret first second,
        Rsa.PrivateKey.testNumbers modulus exponent secret first second =
          .ok (Rsa.PrivateKey.ofNumbers? modulus exponent secret first second).isSome) ∧
      ∀ key : Rsa.PrivateKey, key.computeRemainders = .ok key.remainders? :=
  ⟨PublicKey.agree text, PrivateKey.agree text, Rsa.PrivateKey.testNumbers_eq,
    Rsa.PrivateKey.computeRemainders_eq⟩

/-- The texts of the small key are found to be those of an RSA key, also where a point is declared,
and are read as nothing else. A private text has no envelope of a public key and is read as none. A
factor of one is turned away. -/
theorem detect_agrees_with_decode_small :
    let key := PrivateKey.rsa smallKey
    PublicKey.decode smallPublicText .rsa = .ok key.publicKey ∧
      PublicKey.detect smallPublicText .ec = .ok (some .rsa) ∧
      (∃ reason, PublicKey.decode smallPublicText .ec = .error (.ofKey .ec reason)) ∧
      PrivateKey.decode smallPrivateText .rsa = .ok key ∧
      PrivateKey.detect smallPrivateText .ec = .ok (some .rsa) ∧
      PublicKey.detect smallPrivateText .ec = .error (.ofKey .ec (.malformed .layout)) ∧
      (∀ algorithm, ∃ error, PublicKey.decode smallPrivateText algorithm = .error error) ∧
      Rsa.PrivateKey.testNumbers 67591 65537 29953 1 67591 = .ok false := by
  intro key
  have hpublic : PublicKey.decode smallPublicText .rsa = .ok key.publicKey := by decide +kernel
  have hprivate : PrivateKey.decode smallPrivateText .rsa = .ok key := by decide +kernel
  have hmixed :
      PublicKey.detect smallPrivateText .ec = .error (.ofKey .ec (.malformed .layout)) := by
    decide +kernel
  obtain ⟨hpublicText, -, htest, -⟩ := detect_agrees_with_decode smallPublicText
  obtain ⟨hmixedText, hprivateText, -⟩ := detect_agrees_with_decode smallPrivateText
  refine ⟨hpublic, hpublicText.detect_eq _ _ hpublic .ec, ?_, hprivate,
    hprivateText.detect_eq _ _ hprivate .ec, hmixed, hmixedText.decode_fails _ _ hmixed, ?_⟩
  · cases hother : PublicKey.decode smallPublicText .ec with
    | error error =>
        obtain ⟨reason, rfl⟩ := hpublicText.decode_error _ _ hother
        exact ⟨reason, rfl⟩
    | ok other => cases hpublicText.kind_unique _ _ hpublic _ _ hother
  · rw [htest]
    decide

end SigningKeys
