import Mathlib.Control.Monad.Basic
import SigningKeys.Proofs.Key.PublicText

/-!
# Private keys from their texts

Whenever a text is written for a private key, it is read as this key, and its kind is found without
reading the key (`PrivateKey.decode_encode`, `PrivateKey.detect_encode`). Writing checks that there
is room for the whole envelope, and every part of it is shorter.
-/

namespace SigningKeys

open Der

/-! ## Fields -/

/-- What is no field with a lower number is not passed over. -/
theorem skipFields_cons {number tag : UInt8} (htag : isTag tag = true)
    (hnumber : (isField tag && tag % 32 < number) = false) (rest : List UInt8) :
    skipFields number (tag :: rest) = some (tag :: rest) := by
  rw [skipFields, if_pos htag, hnumber]
  rfl

/-- Field 1 is no field 0. -/
theorem readField_zero (content : List UInt8) :
    readField 0 (constructedField 0) (element (constructedField 1) content) =
      some (none, element (constructedField 1) content) := by
  rw [readField, element, skipFields_cons (by decide) (by decide)]
  rfl

/-- Field 1 is read as what is in it. -/
theorem readField_one {content : List UInt8} (h : Fits content) :
    readField 1 (constructedField 1) (element (constructedField 1) content) =
      some (some content, []) := by
  have hread := readElement_append h (constructedField 1) []
  rw [List.append_nil, element] at hread
  rw [readField, element, skipFields_cons (by decide) (by decide)]
  simp only [Option.bind_eq_bind, Option.bind_some]
  rw [if_pos (by decide), hread]
  rfl

/-! ## Envelopes -/

namespace PrivateEnvelope

/-- An envelope that was written is read. -/
theorem read?_of_bytes? {algorithm : Algorithm} {key bytes : List UInt8}
    (h : bytes? (.ofAlgorithm algorithm) key = some bytes) :
    read? bytes = some ⟨.ofAlgorithm algorithm, key⟩ := by
  obtain ⟨hfits, rfl⟩ := sequence?_eq_some_iff.1 h
  have hkey : Fits key := hfits.right.of_element
  have hversion : Fits (BigEndian.signed 0) := hfits.left.left.of_element
  have hoctets := readOctets_append hkey []
  rw [List.append_nil] at hoctets
  have hfield : readField 1 (primitiveField 1) [] = some (none, []) := by
    rw [readField, skipFields]
    rfl
  rw [read?, contentOfSequence?_sequence hfits, content, List.append_assoc]
  simp [readNat_append hversion, AlgorithmId.read_append, hoctets, hfield, areFields]

/-- An envelope that was written is read from its text, by way of any further reading. -/
theorem readKeyText_of_bytes? {α : Type} {algorithm : Algorithm} {key bytes : List UInt8}
    {result : α} {read : PrivateEnvelope → Option α}
    (h : bytes? (.ofAlgorithm algorithm) key = some bytes)
    (hread : read ⟨.ofAlgorithm algorithm, key⟩ = some result) (declared : Algorithm)
    (fault : KeyPart) :
    readKeyText (.ofList (Base64.encode bytes)) declared fault (fun bytes ↦ do
      let envelope ← read? bytes
      read envelope) = .ok result := by
  refine readKeyText_sequence h ?_ declared fault
  rw [read?_of_bytes? h]
  exact hread

end PrivateEnvelope

/-! ## Secret scalars -/

namespace P256

/-- The coordinates of a point are recognised as its coordinates. -/
theorem Point.ofResult?_coordinates {result : Coordinates} {point : Point}
    (h : result = point.coordinates) : Point.ofResult? result = some ⟨point, h⟩ := by
  subst h
  exact dif_pos point.onCurve

namespace SecretKey

/-- A secret key is found from its scalar. -/
theorem ofScalar?_scalar (secret : SecretKey) : ofScalar? secret.scalar = some secret := by
  rw [ofScalar?, dif_pos ⟨secret.scalar_pos, secret.scalar_lt⟩,
    Point.ofResult?_coordinates secret.multiple_eq]
  rfl

/-- A secret scalar has as many bytes as a coordinate. -/
theorem length_bytes (secret : SecretKey) : secret.bytes.length = byteCount :=
  BigEndian.length_padded byteCount secret.scalar

/-- A secret key is read from its bytes. -/
theorem ofBytes?_bytes (secret : SecretKey) : ofBytes? secret.bytes = some secret := by
  have hwidth : order < 256 ^ byteCount := by decide +kernel
  have hscalar : BigEndian.toNat secret.bytes = secret.scalar :=
    BigEndian.toNat_padded (Nat.lt_trans secret.scalar_lt hwidth)
  rw [ofBytes?, hscalar, secret.length_bytes, if_pos (by decide), ofScalar?_scalar]

/-- A secret key is read from its bytes inside the envelope. -/
theorem ofDer?_toDer {secret : SecretKey} (h : Fits secret.toDer) :
    ofDer? secret.toDer = some secret := by
  have hcontent : Fits (integer 1 ++ octetString secret.bytes ++
      element (constructedField 1) (bitString secret.point.bytes)) := h.of_element
  have hversion : Fits (BigEndian.signed 1) := hcontent.left.left.of_element
  have hscalar : Fits secret.bytes := hcontent.left.right.of_element
  have hfield : Fits (bitString secret.point.bytes) := hcontent.right.of_element
  have hpoint : Fits (0 :: secret.point.bytes) := hfield.of_element
  rw [ofDer?, toDer, contentOfSequence?_sequence hcontent, List.append_assoc]
  simp [readNat_append hversion, readOctets_append hscalar, readField_zero, readField_one hfield,
    ofBytes?_bytes, pointBytes?, whole_readBits hpoint, Bits.whole?]

end SecretKey

end P256

/-! ## RSA numbers -/

/-- An RSA key is read from its bytes inside the envelope. -/
theorem Rsa.PrivateKey.ofDer?_toDer {key : PrivateKey} {remainders : Remainders}
    (h : Fits (key.toDer remainders)) : ofDer? (key.toDer remainders) = some key := by
  have hcontent : Fits (integer 0 ++ integer key.publicKey.modulus ++
      integer key.publicKey.exponent ++ integer key.secret ++ integer key.first ++
      integer key.second ++ integer remainders.first ++ integer remainders.second ++
      integer remainders.coefficient) := h.of_element
  -- Each number is the last one of a shorter and shorter beginning.
  have hcoefficient := hcontent.right.of_element
  have hsecondRemainder := hcontent.left.right.of_element
  have hfirstRemainder := hcontent.left.left.right.of_element
  have hsecond := hcontent.left.left.left.right.of_element
  have hfirst := hcontent.left.left.left.left.right.of_element
  have hsecret := hcontent.left.left.left.left.left.right.of_element
  have hexponent := hcontent.left.left.left.left.left.left.right.of_element
  have hmodulus := hcontent.left.left.left.left.left.left.left.right.of_element
  have hversion := hcontent.left.left.left.left.left.left.left.left.of_element
  have hnumbers : ofNumbers? key.publicKey.modulus key.publicKey.exponent key.secret key.first
      key.second = some key := ofNumbers?_eq_some_iff.2 ⟨rfl, rfl, rfl, rfl, rfl⟩
  rw [ofDer?, toDer, contentOfSequence?_sequence hcontent]
  simp only [List.append_assoc]
  simp [readNat_append hversion, readNat_append hmodulus, readNat_append hexponent,
    readNat_append hsecret, readNat_append hfirst, readNat_append hsecond,
    readNat_append hfirstRemainder, readNat_append hsecondRemainder, whole_readNat hcoefficient,
    hnumbers]

/-! ## Keys -/

namespace PrivateKey

variable {key : PrivateKey} {inner : List UInt8}

/-- A private key is read from its bytes inside the envelope. -/
theorem ofEnvelope?_innerBytes (hinner : key.innerBytes? = some inner) (hfits : Fits inner) :
    ofEnvelope? key.algorithm ⟨.ofAlgorithm key.algorithm, inner⟩ = some key := by
  cases key with
  | ec secret =>
      cases hinner
      simp [ofEnvelope?, algorithm, P256.SecretKey.ofDer?_toDer hfits]
  | rsa key =>
      simp only [innerBytes?, Option.map_eq_some_iff] at hinner
      obtain ⟨remainders, -, rfl⟩ := hinner
      simp [ofEnvelope?, algorithm, Rsa.PrivateKey.ofDer?_toDer hfits]

/-- A key has bytes exactly when it has inner bytes that fit an envelope. -/
theorem bytes_eq_ok_iff {bytes : List UInt8} :
    key.bytes = .ok bytes ↔
      ∃ inner, key.innerBytes? = some inner ∧
        PrivateEnvelope.bytes? (.ofAlgorithm key.algorithm) inner = some bytes := by
  unfold PrivateKey.bytes
  cases hinner : key.innerBytes? with
  | none => simp
  | some inner =>
      cases hbytes : PrivateEnvelope.bytes? (.ofAlgorithm key.algorithm) inner with
      | none => simp [hbytes]
      | some found => simp [hbytes]

/-- The envelope of a key is read from its text, by way of any further reading. -/
theorem readKeyText_of_encode {α : Type} {text : String} {result : α}
    {read : PrivateEnvelope → Option α} (h : key.encode = .ok text)
    (hread : ∀ inner, key.innerBytes? = some inner → Fits inner →
      read ⟨.ofAlgorithm key.algorithm, inner⟩ = some result)
    (declared : Algorithm) (fault : KeyPart) :
    readKeyText text declared fault (fun bytes ↦ do
      let envelope ← PrivateEnvelope.read? bytes
      read envelope) = .ok result := by
  obtain ⟨bytes, hbytes, rfl⟩ := writeKeyText_eq_ok_iff.1 h
  obtain ⟨inner, hinner, henvelope⟩ := bytes_eq_ok_iff.1 hbytes
  obtain ⟨hfits, -⟩ := sequence?_eq_some_iff.1 henvelope
  exact PrivateEnvelope.readKeyText_of_bytes? henvelope
    (hread inner hinner hfits.right.of_element) declared fault

/-- An RSA key is read whatever is written for the three numbers that follow from the others. -/
theorem exists_decode_toDer {key : Rsa.PrivateKey} {remainders : Rsa.Remainders}
    (h : Fits (PrivateEnvelope.content (.ofAlgorithm .rsa) (key.toDer remainders))) :
    ∃ text, decode text .rsa = .ok (.rsa key) := by
  have henvelope := sequence?_eq_some_iff.2 ⟨h, rfl⟩
  refine ⟨_, PrivateEnvelope.readKeyText_of_bytes? henvelope ?_ .rsa .numbers⟩
  simp [ofEnvelope?, Rsa.PrivateKey.ofDer?_toDer h.right.of_element]

/-- A key is read from its text. -/
theorem decode_encode {text : String} (h : key.encode = .ok text) :
    decode text key.algorithm = .ok key :=
  readKeyText_of_encode h (fun _ hinner hfits ↦ ofEnvelope?_innerBytes hinner hfits) _ _

/-- The kind of a key is found in its text. -/
theorem detect_encode {text : String} (h : key.encode = .ok text) (declared : Algorithm) :
    detect text declared = .ok (some key.algorithm) := by
  refine readKeyText_of_encode h (fun inner _ _ ↦ ?_) declared .layout
  exact congrArg some (AlgorithmId.algorithm?_ofAlgorithm key.algorithm)

/-- The small key has the text that is given for it. -/
theorem encode_smallKey : (PrivateKey.rsa smallKey).encode = .ok smallPrivateText := by
  decide +kernel

end PrivateKey

end SigningKeys
