import SigningKeys.Proofs.Key.PrivateText
import SigningKeys.Proofs.Pem
import SigningKeys.Proofs.Rsa.Key

/-!
# How long keys are

A key text stands for no more bytes than it has characters, and the numbers of a key have no more
digits than it has bytes. In the other direction, numbers of few digits fit an envelope. So an RSA
key from a text of moderate length can be written unless its primes share a factor
(`PrivateKey.encode_fails_iff`, `PrivateKey.not_isTooLong_of_decode`). A public half takes less room
than the private one, so both halves of a pair are written when that is (`KeyPair.exists_encode`).
-/

namespace SigningKeys

open Der

/-! ## From texts to numbers -/

/-- Removing blanks leaves no more characters. -/
theorem Text.length_trim_le (text : List Char) : (trim text).length ≤ text.length := by
  have hend : (trimEnd (trimStart text)).length ≤ (trimStart text).length := by
    rw [trimEnd, List.length_reverse]
    exact Nat.le_trans (List.dropWhile_sublist _).length_le (Nat.le_of_eq List.length_reverse)
  exact Nat.le_trans hend (List.dropWhile_sublist _).length_le

/-- A key text stands for no more bytes than it has characters. -/
theorem length_keyBytes_le {text : String} {bytes : List UInt8} (h : keyBytes text = .ok bytes) :
    bytes.length ≤ text.length := by
  have htrim : (Text.trim text.toList).length ≤ text.length := by
    rw [← String.length_toList]
    exact Text.length_trim_le text.toList
  unfold keyBytes at h
  dsimp only at h
  split at h
  · cases h
  · split at h
    · split at h
      · next found hfound =>
          split at h
          · cases h
            exact Nat.le_trans (Pem.length_decode_le hfound) htrim
          · cases h
      · cases h
    · split at h
      · next found hfound =>
          cases h
          exact Nat.le_trans (Base64.length_decode_le hfound) htrim
      · cases h

/-- What follows an algorithm is shorter. -/
theorem AlgorithmId.length_lt_of_read {bytes rest : List UInt8} {algorithm : AlgorithmId}
    (h : read bytes = some (algorithm, rest)) : rest.length < bytes.length := by
  simp only [read, Option.bind_eq_bind, Option.bind_eq_some_iff, Prod.exists] at h
  obtain ⟨content, more, hsequence, found, -, h⟩ := h
  cases h
  have hlt := length_lt_of_readElement hsequence
  omega

/-- The key in an envelope is shorter than the envelope. -/
theorem PrivateEnvelope.length_key_le {bytes : List UInt8} {envelope : PrivateEnvelope}
    (h : read? bytes = some envelope) : envelope.key.length ≤ bytes.length := by
  simp only [read?, Option.bind_eq_bind, Option.bind_eq_some_iff, Prod.exists] at h
  obtain ⟨content, hsequence, version, afterVersion, hversion, algorithm, afterAlgorithm,
    halgorithm, key, afterKey, hkey, publicKey, _, -, h⟩ := h
  have henvelope : envelope = ⟨algorithm, key⟩ := by
    cases publicKey with
    | none =>
        obtain ⟨_, -, h⟩ := Option.bind_eq_some_iff.1 h
        split at h
        · exact (Option.some.inj h).symm
        · cases h
    | some content =>
        obtain ⟨_, -, h⟩ := Option.bind_eq_some_iff.1 h
        split at h
        · exact (Option.some.inj h).symm
        · cases h
  have hcontent := length_lt_of_contentOfSequence? hsequence
  obtain ⟨-, hafterVersion⟩ := lt_pow_of_readNat hversion (Nat.le_refl content.length)
  have hafterAlgorithm := AlgorithmId.length_lt_of_read halgorithm
  have hkeyLength := length_lt_of_readElement hkey
  rw [henvelope]
  show key.length ≤ bytes.length
  omega

/-- The numbers of an RSA key have no more digits than there are bytes to read them from. -/
theorem Rsa.PrivateKey.lt_pow_of_ofDer? {bytes : List UInt8} {key : PrivateKey} {width : Nat}
    (h : ofDer? bytes = some key) (hwidth : bytes.length ≤ width) :
    key.publicKey.modulus < 256 ^ width ∧ key.secret < 256 ^ width := by
  simp only [ofDer?, Option.bind_eq_bind, Option.bind_eq_some_iff, Prod.exists] at h
  obtain ⟨content, hsequence, version, afterVersion, hversion, h⟩ := h
  split at h
  · cases h
  · simp only [Option.bind_eq_some_iff, Prod.exists] at h
    obtain ⟨modulus, afterModulus, hmodulus, exponent, afterExponent, hexponent, secret,
      afterSecret, hsecret, first, _, _, second, _, _, _, _, _, _, _, _, _, _, h⟩ := h
    obtain ⟨rfl, -, rfl, -, -⟩ := ofNumbers?_eq_some_iff.1 h
    have hcontent : content.length ≤ width :=
      Nat.le_of_lt (Nat.lt_of_lt_of_le (length_lt_of_contentOfSequence? hsequence) hwidth)
    obtain ⟨-, hafterVersion⟩ := lt_pow_of_readNat hversion hcontent
    obtain ⟨hmodulusLt, hafterModulus⟩ := lt_pow_of_readNat hmodulus hafterVersion
    obtain ⟨-, hafterExponent⟩ := lt_pow_of_readNat hexponent hafterModulus
    exact ⟨hmodulusLt, (lt_pow_of_readNat hsecret hafterExponent).1⟩

/-- The numbers of an RSA key have no more digits than the text has characters. -/
theorem PrivateKey.lt_pow_of_decode {text : String} {algorithm : Algorithm} {key : Rsa.PrivateKey}
    (h : decode text algorithm = .ok (.rsa key)) :
    key.publicKey.modulus < 256 ^ text.length ∧ key.secret < 256 ^ text.length := by
  obtain ⟨bytes, envelope, hbytes, hread, henvelope⟩ := decode_eq_ok_iff.1 h
  have hlength : envelope.key.length ≤ text.length :=
    Nat.le_trans (PrivateEnvelope.length_key_le hread) (length_keyBytes_le hbytes)
  obtain ⟨-, hkey⟩ := ofEnvelope?_eq_some_iff.1 henvelope
  cases algorithm with
  | ec =>
      obtain ⟨secret, -, hne⟩ := hkey
      cases hne
  | rsa =>
      obtain ⟨numbers, hnumbers, heq⟩ := hkey
      cases heq
      exact Rsa.PrivateKey.lt_pow_of_ofDer? hnumbers hlength

/-! ## From numbers to envelopes -/

/-- A number of bytes so small that there is room for the envelope of a key with numbers of as many
bytes. -/
def moderateWidth : Nat := 2 ^ 24

/-- A sequence fits an envelope as the key in it when there is room for the rest of the envelope. -/
theorem PrivateEnvelope.fits_content (algorithm : Algorithm) {values : List UInt8}
    (h : values.length + 64 ≤ maxLength) :
    Fits (content (.ofAlgorithm algorithm) (Der.sequence values)) := by
  have hvalues : Fits values := fits_of_length_le (by omega)
  have hsequence := length_element_le hvalues sequenceTag
  have hkey : Fits (Der.sequence values) := fits_of_length_le (by rw [Der.sequence]; omega)
  have hoctets := length_element_le hkey octetStringTag
  have hversion := (length_integer_le Nat.one_pos (show 0 < 256 ^ 1 by decide) (by decide)).2
  have halgorithm := AlgorithmId.length_bytes_le algorithm
  refine fits_of_length_le ?_
  rw [content, List.length_append, List.length_append]
  simp only [octetString, Der.sequence] at hoctets hsequence ⊢
  omega

/-- An envelope is longer than the values in the sequence in it. -/
theorem PrivateEnvelope.length_le_content (algorithm : AlgorithmId) (values : List UInt8) :
    values.length ≤ (content algorithm (Der.sequence values)).length := by
  have hsequence := length_add_two_le_element sequenceTag values
  have hoctets := length_add_two_le_element octetStringTag (Der.sequence values)
  rw [content, List.length_append]
  simp only [octetString, Der.sequence] at hoctets hsequence ⊢
  omega

/-- Numbers of moderate width fit an envelope. -/
theorem Rsa.PrivateKey.fits_content {key : PrivateKey} {remainders : Remainders} {width : Nat}
    (h : key.remainders? = some remainders) (hwidth : width ≤ moderateWidth)
    (hmodulus : key.publicKey.modulus < 256 ^ width) (hsecret : key.secret < 256 ^ width) :
    Fits (PrivateEnvelope.content .rsa (key.toDer remainders)) := by
  obtain ⟨-, hexponentLt, -⟩ := key.publicKey.isPublic
  obtain ⟨hfirstLe, hsecondLe⟩ := key.le_modulus
  obtain ⟨hfirstLt, hsecondLt, hcoefficientLt⟩ := remainders_lt_modulus h
  have hmoderate : moderateWidth = 2 ^ 24 := rfl
  have hmax : maxLength = 2 ^ 28 - 1 := rfl
  have hpos : 0 < width := by
    cases width with
    | zero => rw [Nat.pow_zero] at hmodulus; omega
    | succ width => omega
  have hinteger : ∀ n < 256 ^ width, (integer n).length ≤ width + 7 :=
    fun n hn ↦ (length_integer_le hpos hn (by omega)).2
  have hversion := hinteger 0 (by omega)
  have hmodulusLength := hinteger key.publicKey.modulus hmodulus
  have hexponentLength := hinteger key.publicKey.exponent (by omega)
  have hsecretLength := hinteger key.secret hsecret
  have hfirstLength := hinteger key.first (by omega)
  have hsecondLength := hinteger key.second (by omega)
  have hfirstRemainder := hinteger remainders.first (by omega)
  have hsecondRemainder := hinteger remainders.second (by omega)
  have hcoefficient := hinteger remainders.coefficient (by omega)
  have hnumbers : (integer 0 ++ integer key.publicKey.modulus ++
      integer key.publicKey.exponent ++ integer key.secret ++ integer key.first ++
      integer key.second ++ integer remainders.first ++ integer remainders.second ++
      integer remainders.coefficient).length ≤ 9 * (width + 7) := by
    simp only [List.length_append]
    omega
  exact PrivateEnvelope.fits_content .rsa (by omega)

/-- A secret scalar and its point fit an envelope. -/
theorem P256.SecretKey.fits_content (secret : SecretKey) :
    Fits (PrivateEnvelope.content .p256 secret.toDer) := by
  have hmax : 256 ≤ maxLength := by decide
  have hshort : ∀ content : List UInt8, content.length ≤ 128 → Fits content :=
    fun content hlength ↦ fits_of_length_le (by omega)
  have hwidth : byteCount = 32 := rfl
  have hscalar := secret.length_bytes
  have hpoint := secret.point.length_bytes
  have hversion := (length_integer_le Nat.one_pos (show 1 < 256 ^ 1 by decide) (by decide)).2
  have hoctets := length_element_le (hshort secret.bytes (by omega)) octetStringTag
  have hbits := length_element_le (hshort (0 :: secret.point.bytes)
    (by rw [List.length_cons]; omega)) bitStringTag
  rw [List.length_cons] at hbits
  have hfield := length_element_le (hshort (bitString secret.point.bytes)
    (by rw [bitString]; omega)) (constructedField 1)
  have hvalues : (integer 1 ++ octetString secret.bytes ++
      element (constructedField 1) (bitString secret.point.bytes)).length ≤ 128 := by
    rw [List.length_append, List.length_append]
    simp only [octetString, bitString] at hoctets hbits hfield ⊢
    omega
  exact PrivateEnvelope.fits_content .ec (by omega)

/-- The numbers of the public half are among those of an RSA key, and take less room. -/
theorem Rsa.PrivateKey.fits_publicKey {key : PrivateKey} {remainders : Remainders}
    (h : Fits (PrivateEnvelope.content .rsa (key.toDer remainders))) :
    Fits (PublicEnvelope.content .rsa key.publicKey.toDer) := by
  have hversion : 2 ≤ (integer 0).length :=
    Nat.le_trans (Nat.le_add_left 2 _) (length_add_two_le_element integerTag (BigEndian.signed 0))
  have hnumbers : (integer key.publicKey.modulus ++ integer key.publicKey.exponent).length + 1 ≤
      (integer 0 ++ integer key.publicKey.modulus ++ integer key.publicKey.exponent ++
        integer key.secret ++ integer key.first ++ integer key.second ++
        integer remainders.first ++ integer remainders.second ++
        integer remainders.coefficient).length := by
    simp only [List.length_append]
    omega
  -- A bit string has one byte more than an octet string, for which the version makes room.
  have hinner := length_element_add_le sequenceTag sequenceTag hnumbers
  have hkey : (0 :: key.publicKey.toDer).length + 0 ≤ (key.toDer remainders).length := hinner
  have hstring := length_element_add_le bitStringTag octetStringTag hkey
  refine h.of_length_le ?_
  simp only [PrivateEnvelope.content, PublicEnvelope.content, bitString, octetString,
    List.length_append]
  omega

/-! ## When a private key can be written -/

namespace PrivateKey

variable {key : PrivateKey}

/-- The primes of an RSA key share a factor; a secret scalar has no primes. -/
def SharesFactor : PrivateKey → Prop
  | .ec _ => False
  | .rsa key => ¬ Nat.Coprime key.first key.second

/-- There is no room for the envelope of a key. -/
def IsTooLong (key : PrivateKey) : Prop :=
  ∃ inner, key.innerBytes? = some inner ∧
    ¬ Fits (PrivateEnvelope.content (.ofAlgorithm key.algorithm) inner)

/-- A key has no inner bytes exactly when its primes share a factor. -/
theorem innerBytes?_eq_none_iff : key.innerBytes? = none ↔ key.SharesFactor := by
  cases key with
  | ec secret => simp [innerBytes?, SharesFactor]
  | rsa key =>
      show key.remainders?.map key.toDer = none ↔ ¬ Nat.Coprime key.first key.second
      rw [Option.map_eq_none_iff, ← key.isSome_remainders?_iff, Option.not_isSome_iff_eq_none]

/-- There are two reasons why a key cannot be written, and each has its own error. -/
theorem encode_eq_error_iff {error : Error} :
    key.encode = .error error ↔
      key.SharesFactor ∧ error = .general .primesShareFactor ∨
        key.IsTooLong ∧ error = .general .privateLengthOverflow := by
  rw [← innerBytes?_eq_none_iff]
  unfold encode PrivateKey.bytes IsTooLong PrivateEnvelope.bytes? sequence?
  cases key.innerBytes? with
  | none => simp [writeKeyText, eq_comm]
  | some inner =>
      by_cases hfits : Fits (PrivateEnvelope.content (.ofAlgorithm key.algorithm) inner)
      · simp [writeKeyText, hfits]
      · simp [writeKeyText, hfits, eq_comm]

/-- A key cannot be written when one of the two reasons applies. -/
theorem encode_fails_iff :
    (∃ error, key.encode = .error error) ↔ key.SharesFactor ∨ key.IsTooLong := by
  simp only [encode_eq_error_iff]
  constructor
  · rintro ⟨_, ⟨hshares, -⟩ | ⟨hlong, -⟩⟩
    · exact .inl hshares
    · exact .inr hlong
  · rintro (hshares | hlong)
    · exact ⟨_, .inl ⟨hshares, rfl⟩⟩
    · exact ⟨_, .inr ⟨hlong, rfl⟩⟩

/-- A key can be written when none of the two reasons applies. -/
theorem exists_encode (hshares : ¬ key.SharesFactor) (hlong : ¬ key.IsTooLong) :
    ∃ text, key.encode = .ok text := by
  cases htext : key.encode with
  | error error =>
      rcases encode_fails_iff.1 ⟨error, htext⟩ with h | h
      · exact absurd h hshares
      · exact absurd h hlong
  | ok text => exact ⟨text, rfl⟩

/-- The public half of a key that can be written can be written as well. -/
theorem exists_encode_publicKey {text : String} (h : key.encode = .ok text) :
    ∃ publicText, key.publicKey.encode = .ok publicText := by
  cases key with
  | ec secret =>
      have hreadable : (PublicKey.ec secret.point).IsReadable := trivial
      exact hreadable.exists_encode
  | rsa key =>
      obtain ⟨bytes, hbytes, -⟩ := writeKeyText_eq_ok_iff.1 h
      obtain ⟨inner, hinner, henvelope⟩ := bytes_eq_ok_iff.1 hbytes
      obtain ⟨hfits, -⟩ := sequence?_eq_some_iff.1 henvelope
      obtain ⟨remainders, -, rfl⟩ := Option.map_eq_some_iff.1 hinner
      exact PublicKey.exists_encode_of_fits (Rsa.PrivateKey.fits_publicKey hfits)

/-- A secret scalar is not too long. -/
theorem not_isTooLong_ec (secret : P256.SecretKey) : ¬ (PrivateKey.ec secret).IsTooLong := by
  rintro ⟨inner, hinner, hlong⟩
  cases hinner
  exact hlong secret.fits_content

/-- An RSA key with numbers of moderate width is not too long. -/
theorem not_isTooLong_rsa {key : Rsa.PrivateKey} {width : Nat} (hwidth : width ≤ moderateWidth)
    (hmodulus : key.publicKey.modulus < 256 ^ width) (hsecret : key.secret < 256 ^ width) :
    ¬ (PrivateKey.rsa key).IsTooLong := by
  rintro ⟨inner, hinner, hlong⟩
  obtain ⟨remainders, hremainders, rfl⟩ := Option.map_eq_some_iff.1 hinner
  exact hlong (Rsa.PrivateKey.fits_content hremainders hwidth hmodulus hsecret)

/-- A key from a text of moderate length is not too long. -/
theorem not_isTooLong_of_decode {text : String} {algorithm : Algorithm}
    (h : decode text algorithm = .ok key) (hlength : text.length ≤ moderateWidth) :
    ¬ key.IsTooLong := by
  cases key with
  | ec secret => exact not_isTooLong_ec secret
  | rsa key =>
      obtain ⟨hmodulus, hsecret⟩ := lt_pow_of_decode h
      exact not_isTooLong_rsa hlength hmodulus hsecret

end PrivateKey

namespace KeyPair

variable {pair : KeyPair} {publicText privateText : String}

/-- A pair is written when both halves are. -/
theorem encode_eq_ok_iff :
    pair.encode = .ok (publicText, privateText) ↔
      pair.publicKey.encode = .ok publicText ∧ pair.privateKey.encode = .ok privateText := by
  unfold KeyPair.encode
  cases hpublic : pair.publicKey.encode with
  | error error => simp [bind, Except.bind]
  | ok found =>
      cases hprivate : pair.privateKey.encode <;> simp [bind, Except.bind, pure, Except.pure]

/-- A pair is written when its private half is, which takes more room. -/
theorem exists_encode (h : pair.privateKey.encode = .ok privateText) :
    ∃ publicText, pair.encode = .ok (publicText, privateText) := by
  obtain ⟨publicText, hpublic⟩ := PrivateKey.exists_encode_publicKey h
  rw [pair.paired] at hpublic
  exact ⟨publicText, encode_eq_ok_iff.2 ⟨hpublic, h⟩⟩

end KeyPair

end SigningKeys
