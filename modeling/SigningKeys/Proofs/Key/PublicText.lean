import SigningKeys.Proofs.Base64
import SigningKeys.Proofs.Der
import SigningKeys.Proofs.Key.Kind
import SigningKeys.Proofs.Rsa.Key

/-!
# Public keys from their texts

The text that is written for a public key is read as this key, and its kind is found without reading
the key (`PublicKey.decode_encode`, `PublicKey.detect_encode`). To be read, an RSA key must not have
too large a modulus; points need no condition. Whatever can be read can be written
(`PublicKey.IsReadable.exists_encode`).
-/

namespace SigningKeys

open Der

/-! ## Envelopes -/

/-- The algorithm of a kind of key is read, whatever follows it. -/
theorem AlgorithmId.read_append (algorithm : Algorithm) (rest : List UInt8) :
    AlgorithmId.read ((ofAlgorithm algorithm).bytes ++ rest) =
      some (ofAlgorithm algorithm, rest) := by
  have hfits : Fits (objectId (ofAlgorithm algorithm).id ++
      ((ofAlgorithm algorithm).parameter.map Value.bytes).getD []) := by
    cases algorithm <;> decide
  have hcontent : ofContent (objectId (ofAlgorithm algorithm).id ++
      ((ofAlgorithm algorithm).parameter.map Value.bytes).getD []) =
      some (ofAlgorithm algorithm) := by
    cases algorithm <;> decide
  rw [AlgorithmId.read, AlgorithmId.bytes, readSequence, Der.sequence, readElement_append hfits]
  simp [hcontent]

/-- The algorithm of a kind of key takes few bytes. -/
theorem AlgorithmId.length_bytes_le (algorithm : Algorithm) :
    (ofAlgorithm algorithm).bytes.length ≤ 32 := by
  cases algorithm <;> decide

/-- There is room for the envelope of a key of moderate length. -/
theorem PublicEnvelope.fits_content (algorithm : Algorithm) {key : List UInt8}
    (h : key.length < 256 ^ 3) : Fits (content (.ofAlgorithm algorithm) key) := by
  have hmax : maxLength = 268435455 := rfl
  have hkey : Fits (0 :: key) := fits_of_length_le (by rw [List.length_cons]; omega)
  have halgorithm := AlgorithmId.length_bytes_le algorithm
  have hbits := length_element_le hkey bitStringTag
  refine fits_of_length_le ?_
  rw [content, List.length_append, bitString]
  rw [List.length_cons] at hbits
  omega

/-- An envelope that was written is read. -/
theorem PublicEnvelope.read?_of_bytes? {algorithm : Algorithm} {key bytes : List UInt8}
    (h : bytes? (.ofAlgorithm algorithm) key = some bytes) :
    read? bytes = some ⟨.ofAlgorithm algorithm, ⟨0, key⟩⟩ := by
  obtain ⟨hfits, rfl⟩ := sequence?_eq_some_iff.1 h
  have hkey : Fits (0 :: key) := hfits.right.of_element
  rw [read?, contentOfSequence?_sequence hfits, content]
  simp [AlgorithmId.read_append, whole_readBits hkey]

/-! ## What is inside -/

/-- The coordinates of a point are found from as many bytes as they are written in. -/
theorem P256.Point.toNat_padded (point : Point) :
    BigEndian.toNat (BigEndian.padded byteCount point.x) = point.x ∧
      BigEndian.toNat (BigEndian.padded byteCount point.y) = point.y := by
  have hprime : prime < 256 ^ byteCount := by decide +kernel
  obtain ⟨hx, hy, -⟩ := point.onCurve
  exact ⟨BigEndian.toNat_padded (Nat.lt_trans hx hprime),
    BigEndian.toNat_padded (Nat.lt_trans hy hprime)⟩

/-- The coordinates of a point are those of the point. -/
theorem P256.Point.ofCoordinates?_self (point : Point) :
    Point.ofCoordinates? point.x point.y = some point :=
  dif_pos point.onCurve

/-- A point is read from its bytes. -/
theorem P256.Point.ofBytes?_bytes (point : Point) : Point.ofBytes? point.bytes = some point := by
  obtain ⟨hx, hy⟩ := point.toNat_padded
  have hself := point.ofCoordinates?_self
  obtain ⟨x, y, onCurve⟩ := point
  have htake : (BigEndian.padded byteCount x ++ BigEndian.padded byteCount y).take byteCount =
      BigEndian.padded byteCount x := List.take_left' (BigEndian.length_padded _ _)
  have hdrop : (BigEndian.padded byteCount x ++ BigEndian.padded byteCount y).drop byteCount =
      BigEndian.padded byteCount y := List.drop_left' (BigEndian.length_padded _ _)
  have hlength : (BigEndian.padded byteCount x ++ BigEndian.padded byteCount y).length =
      2 * byteCount := by
    rw [List.length_append, BigEndian.length_padded, BigEndian.length_padded]
    omega
  simp only [Point.bytes, Point.ofBytes?, htake, hdrop, hx, hy]
  rw [if_pos trivial, if_pos hlength, hself]

/-- A point has as many bytes as its two coordinates and one more. -/
theorem P256.Point.length_bytes (point : Point) : point.bytes.length = 65 := by
  rw [Point.bytes, List.length_cons, List.length_append, BigEndian.length_padded,
    BigEndian.length_padded]
  rfl

/-- The most bytes that the modulus of an RSA key of permitted size takes. -/
def Rsa.maxModulusBytes : Nat := maxModulusBits / 8

/-- The two numbers of an RSA key of permitted size have few bytes. -/
theorem Rsa.PublicKey.fits_numbers {key : PublicKey}
    (h : BigEndian.bitLength key.modulus ≤ maxModulusBits) :
    Fits (BigEndian.signed key.modulus) ∧ Fits (BigEndian.signed key.exponent) ∧
      (integer key.modulus ++ integer key.exponent).length ≤ maxModulusBytes + 19 := by
  have hmodulus : key.modulus < 256 ^ maxModulusBytes := BigEndian.lt_pow_of_bitLength_le h
  have hexponent : key.exponent < 256 ^ 5 :=
    Nat.lt_of_le_of_lt key.isPublic.2.2.2.2 (by decide)
  obtain ⟨hfirst, hfirstLength⟩ := length_integer_le (by decide) hmodulus (by decide)
  obtain ⟨hsecond, hsecondLength⟩ := length_integer_le (by omega) hexponent (by decide)
  refine ⟨hfirst, hsecond, ?_⟩
  rw [List.length_append]
  omega

/-- An RSA key of permitted size is read from its bytes. -/
theorem Rsa.PublicKey.ofDer?_toDer {key : PublicKey}
    (h : BigEndian.bitLength key.modulus ≤ maxModulusBits) :
    PublicKey.ofDer? key.toDer = some key := by
  obtain ⟨hmodulus, hexponent, hlength⟩ := fits_numbers h
  have hcontent : Fits (integer key.modulus ++ integer key.exponent) :=
    fits_of_length_le (Nat.le_trans (Nat.add_le_add_right hlength 6) (by decide))
  rw [PublicKey.ofDer?, PublicKey.toDer, contentOfSequence?_sequence hcontent]
  have hnumbers : ofNumbers? key.modulus key.exponent = some key :=
    ofNumbers?_eq_some_iff.2 ⟨rfl, rfl⟩
  simp [readNat_append hmodulus, whole_readNat hexponent, h, hnumbers]

/-- The modulus of an RSA key that is read is of permitted size. -/
theorem Rsa.PublicKey.bitLength_le_of_ofDer? {bytes : List UInt8} {key : PublicKey}
    (h : ofDer? bytes = some key) : BigEndian.bitLength key.modulus ≤ maxModulusBits := by
  simp only [ofDer?, Option.bind_eq_bind, Option.bind_eq_some_iff, Prod.exists] at h
  obtain ⟨_, _, modulus, _, _, exponent, _, h⟩ := h
  split at h
  · next hsize =>
      obtain ⟨rfl, -⟩ := ofNumbers?_eq_some_iff.1 h
      exact hsize
  · cases h

namespace PublicKey

/-- The key is not too large to be read back. -/
def IsReadable : PublicKey → Prop
  | .ec _ => True
  | .rsa key => BigEndian.bitLength key.modulus ≤ maxModulusBits

/-- A key has bytes when there is room for its envelope. -/
theorem bytes_eq_ok_iff {key : PublicKey} {bytes : List UInt8} :
    key.bytes = .ok bytes ↔
      PublicEnvelope.bytes? (.ofAlgorithm key.algorithm) key.innerBytes = some bytes := by
  unfold PublicKey.bytes
  cases PublicEnvelope.bytes? (.ofAlgorithm key.algorithm) key.innerBytes <;> simp

/-- The inner bytes of a readable key are of moderate length. -/
theorem length_innerBytes_lt {key : PublicKey} (h : key.IsReadable) :
    key.innerBytes.length < 256 ^ 3 := by
  cases key with
  | ec point =>
      show point.bytes.length < 256 ^ 3
      rw [point.length_bytes]
      decide
  | rsa key =>
      obtain ⟨-, -, hlength⟩ := Rsa.PublicKey.fits_numbers h
      have hcontent : Fits (integer key.modulus ++ integer key.exponent) :=
        fits_of_length_le (Nat.le_trans (Nat.add_le_add_right hlength 6) (by decide))
      have hle := length_element_le hcontent sequenceTag
      have hmax : Rsa.maxModulusBytes = 512 := rfl
      show (element sequenceTag (integer key.modulus ++ integer key.exponent)).length < 256 ^ 3
      omega

/-- A readable key is read from its envelope. -/
theorem ofEnvelope?_innerBytes {key : PublicKey} (h : key.IsReadable) :
    ofEnvelope? key.algorithm ⟨.ofAlgorithm key.algorithm, ⟨0, key.innerBytes⟩⟩ = some key := by
  cases key with
  | ec point =>
      simp [ofEnvelope?, Bits.whole?, algorithm, innerBytes, P256.Point.ofBytes?_bytes]
  | rsa key =>
      simp [ofEnvelope?, Bits.whole?, algorithm, innerBytes, Rsa.PublicKey.ofDer?_toDer h]

end PublicKey

/-! ## Texts -/

/-- A text that does not begin with a hyphen is not armoured, and stands for the bytes of its
symbols. -/
theorem keyBytes_eq_ok_iff {text kept : List Char} {bytes : List UInt8}
    (htrim : Text.trim text = kept) (hhead : kept.head? ≠ some '-') :
    keyBytes (.ofList text) = .ok bytes ↔ kept ≠ [] ∧ Base64.decode kept = some bytes := by
  have hmark : Text.dropLead? Pem.mark kept = none := by
    cases hdrop : Text.dropLead? Pem.mark kept with
    | none => rfl
    | some rest =>
        rw [Text.eq_append_of_dropLead? hdrop] at hhead
        exact absurd rfl hhead
  by_cases hnil : kept = []
  · simp [keyBytes, htrim, hnil]
  · cases hdecode : Base64.decode kept <;> simp [keyBytes, htrim, hmark, hnil, hdecode]

/-- The base64 text of bytes stands for these, since it is not blank, not armoured and not empty. -/
theorem keyBytes_encode {bytes : List UInt8} (h : bytes ≠ []) :
    keyBytes (.ofList (Base64.encode bytes)) = .ok bytes := by
  have hclear : ∀ c ∈ Base64.encode bytes, Text.isBlank c = false ∧ c ≠ '-' :=
    fun c hmem ↦ (Base64.isWritten_of_mem_encode hmem).clear
  have htrim := Text.trim_eq_self fun c hmem ↦ (hclear c hmem).1
  have hhead : (Base64.encode bytes).head? ≠ some '-' :=
    fun heq ↦ (hclear '-' (List.mem_of_mem_head? heq)).2 rfl
  exact (keyBytes_eq_ok_iff htrim hhead).2
    ⟨Base64.encode_ne_nil h, Base64.decode_encode bytes⟩

/-- A text of bytes is read as the bytes are. -/
theorem readKeyText_encode {α : Type} {bytes : List UInt8} {result : α}
    {read : List UInt8 → Option α} (h : bytes ≠ []) (hread : read bytes = some result)
    (algorithm : Algorithm) (fault : KeyPart) :
    readKeyText (.ofList (Base64.encode bytes)) algorithm fault read = .ok result := by
  simp only [readKeyText, keyBytes_encode h, hread]

/-- The text of a key is the base64 text of its bytes. -/
theorem writeKeyText_eq_ok_iff {bytes : Except GeneralFault (List UInt8)} {text : String} :
    writeKeyText bytes = .ok text ↔
      ∃ found, bytes = .ok found ∧ text = .ofList (Base64.encode found) := by
  cases bytes with
  | error fault => simp [writeKeyText]
  | ok found => simp [writeKeyText, eq_comm]

/-- A sequence that was written is read from its text as it is from its bytes. -/
theorem readKeyText_sequence {α : Type} {values bytes : List UInt8} {result : α}
    {read : List UInt8 → Option α} (h : sequence? values = some bytes)
    (hread : read bytes = some result) (algorithm : Algorithm) (fault : KeyPart) :
    readKeyText (.ofList (Base64.encode bytes)) algorithm fault read = .ok result := by
  obtain ⟨-, rfl⟩ := sequence?_eq_some_iff.1 h
  exact readKeyText_encode (List.cons_ne_nil _ _) hread algorithm fault

namespace PublicKey

variable {key : PublicKey} {text : String}

/-- A key that is read can be read back from what is written for it. -/
theorem isReadable_of_decode {algorithm : Algorithm} (h : decode text algorithm = .ok key) :
    key.IsReadable := by
  obtain ⟨_, envelope, _, _, henvelope⟩ := decode_eq_ok_iff.1 h
  obtain ⟨-, inner, -, hkey⟩ := ofEnvelope?_eq_some_iff.1 henvelope
  cases algorithm with
  | ec =>
      obtain ⟨point, -, rfl⟩ := hkey
      trivial
  | rsa =>
      obtain ⟨numbers, hnumbers, rfl⟩ := hkey
      exact Rsa.PublicKey.bitLength_le_of_ofDer? hnumbers

/-- A key is written when there is room for its envelope. -/
theorem exists_encode_of_fits
    (h : Fits (PublicEnvelope.content (.ofAlgorithm key.algorithm) key.innerBytes)) :
    ∃ text, key.encode = .ok text :=
  ⟨_, writeKeyText_eq_ok_iff.2
    ⟨_, bytes_eq_ok_iff.2 (sequence?_eq_some_iff.2 ⟨h, rfl⟩), rfl⟩⟩

/-- A readable key is written. -/
theorem IsReadable.exists_encode (h : key.IsReadable) : ∃ text, key.encode = .ok text :=
  exists_encode_of_fits (PublicEnvelope.fits_content key.algorithm (length_innerBytes_lt h))

/-- The envelope of a key is read from its text, by way of any further reading. -/
theorem readKeyText_of_encode {α : Type} {result : α} {read : PublicEnvelope → Option α}
    (h : key.encode = .ok text)
    (hread : read ⟨.ofAlgorithm key.algorithm, ⟨0, key.innerBytes⟩⟩ = some result)
    (declared : Algorithm) (fault : KeyPart) :
    readKeyText text declared fault (fun bytes ↦ do
      let envelope ← PublicEnvelope.read? bytes
      read envelope) = .ok result := by
  obtain ⟨bytes, hbytes, rfl⟩ := writeKeyText_eq_ok_iff.1 h
  have henvelope := bytes_eq_ok_iff.1 hbytes
  refine readKeyText_sequence henvelope ?_ declared fault
  rw [PublicEnvelope.read?_of_bytes? henvelope]
  exact hread

/-- A readable key is read from its text. -/
theorem decode_encode (hreadable : key.IsReadable) (h : key.encode = .ok text) :
    decode text key.algorithm = .ok key :=
  readKeyText_of_encode h (ofEnvelope?_innerBytes hreadable) key.algorithm .numbers

/-- The kind of a key is found in its text. -/
theorem detect_encode (h : key.encode = .ok text) (declared : Algorithm) :
    detect text declared = .ok (some key.algorithm) := by
  refine readKeyText_of_encode h ?_ declared .layout
  exact congrArg some (AlgorithmId.algorithm?_ofAlgorithm key.algorithm)

end PublicKey

end SigningKeys
