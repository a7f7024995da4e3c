import SigningKeys.Key.Text

/-!
# The kinds of keys that are read

A text is read as a key of some kind only if its envelope names exactly this kind, so reading gives
keys of the kind that was asked for, and finding the kind succeeds whenever reading does
(`PublicKey.detect_of_decode`, `PrivateKey.detect_of_decode`).
-/

namespace SigningKeys

/-- The algorithm of a kind of key names this kind. -/
@[simp]
theorem AlgorithmId.algorithm?_ofAlgorithm (algorithm : Algorithm) :
    (ofAlgorithm algorithm).algorithm? = some algorithm := by
  cases algorithm <;> decide

/-- A key text is read when it stands for bytes and these can be read. -/
theorem readKeyText_eq_ok_iff {α : Type} {text : String} {algorithm : Algorithm} {fault : KeyPart}
    {read : List UInt8 → Option α} {result : α} :
    readKeyText text algorithm fault read = .ok result ↔
      ∃ bytes, keyBytes text = .ok bytes ∧ read bytes = some result := by
  unfold readKeyText
  cases hbytes : keyBytes text with
  | error fault => simp
  | ok bytes =>
      cases hread : read bytes with
      | none => simp [hread]
      | some found => simp [hread]

/-- A key text is not read when it stands for no bytes or when these cannot be read, and the error
is about the kind of key that was asked for. -/
theorem readKeyText_eq_error_iff {α : Type} {text : String} {algorithm : Algorithm}
    {fault : KeyPart} {read : List UInt8 → Option α} {error : Error} :
    readKeyText text algorithm fault read = .error error ↔
      (∃ reason, keyBytes text = .error reason ∧ error = .ofKey algorithm reason) ∨
        ∃ bytes, keyBytes text = .ok bytes ∧ read bytes = none ∧
          error = .ofKey algorithm (.malformed fault) := by
  unfold readKeyText
  cases hbytes : keyBytes text with
  | error reason => simp [eq_comm]
  | ok bytes =>
      cases hread : read bytes with
      | none => simp [hread, eq_comm]
      | some found => simp [hread]

/-- Whatever a key text is read as, it is turned away with the error that there is no such key. -/
theorem error_of_readKeyText {α : Type} {text : String} {algorithm : Algorithm} {fault : KeyPart}
    {read : List UInt8 → Option α} {error : Error}
    (h : readKeyText text algorithm fault read = .error error) :
    ∃ reason, error = .ofKey algorithm reason := by
  rcases readKeyText_eq_error_iff.1 h with ⟨reason, -, rfl⟩ | ⟨_, -, -, rfl⟩
  · exact ⟨reason, rfl⟩
  · exact ⟨.malformed fault, rfl⟩

/-- A key text is turned away when no bytes that it stands for can be read. -/
theorem readKeyText_refuses {α : Type} {text : String} {read : List UInt8 → Option α}
    (h : ∀ bytes, keyBytes text = .ok bytes → read bytes = none) (algorithm : Algorithm)
    (fault : KeyPart) :
    ∃ reason, readKeyText text algorithm fault read = .error (.ofKey algorithm reason) := by
  cases hread : readKeyText text algorithm fault read with
  | error error =>
      obtain ⟨reason, rfl⟩ := error_of_readKeyText hread
      exact ⟨reason, rfl⟩
  | ok result =>
      obtain ⟨bytes, hbytes, hresult⟩ := readKeyText_eq_ok_iff.1 hread
      rw [h bytes hbytes] at hresult
      cases hresult

namespace PublicKey

variable {text : String} {algorithm : Algorithm} {key : PublicKey}

/-- A public key is read when the text stands for an envelope with such a key in it. -/
theorem decode_eq_ok_iff :
    decode text algorithm = .ok key ↔
      ∃ bytes envelope, keyBytes text = .ok bytes ∧ PublicEnvelope.read? bytes = some envelope ∧
        ofEnvelope? algorithm envelope = some key := by
  rw [decode, readKeyText_eq_ok_iff]
  simp only [Option.bind_eq_bind, Option.bind_eq_some_iff, exists_and_left]

/-- An envelope holds a key of a kind when it names this kind and has whole bytes that are a key by
the rules of this kind. -/
theorem ofEnvelope?_eq_some_iff {envelope : PublicEnvelope} :
    ofEnvelope? algorithm envelope = some key ↔
      envelope.algorithm = .ofAlgorithm algorithm ∧ ∃ inner, envelope.key.whole? = some inner ∧
        match algorithm with
        | .ec => ∃ point, P256.Point.ofBytes? inner = some point ∧ .ec point = key
        | .rsa => ∃ numbers, Rsa.PublicKey.ofDer? inner = some numbers ∧ .rsa numbers = key := by
  by_cases hnamed : envelope.algorithm = .ofAlgorithm algorithm
  · cases algorithm <;> simp [ofEnvelope?, hnamed, Option.bind_eq_some_iff]
  · simp [ofEnvelope?, hnamed]

/-- An envelope that holds a key of a kind names this kind, and the key is of this kind. -/
theorem algorithm_of_ofEnvelope? {envelope : PublicEnvelope}
    (h : ofEnvelope? algorithm envelope = some key) :
    envelope.algorithm = .ofAlgorithm algorithm ∧ key.algorithm = algorithm := by
  obtain ⟨hnamed, inner, -, h⟩ := ofEnvelope?_eq_some_iff.1 h
  refine ⟨hnamed, ?_⟩
  cases algorithm with
  | ec =>
      obtain ⟨point, -, rfl⟩ := h
      rfl
  | rsa =>
      obtain ⟨numbers, -, rfl⟩ := h
      rfl

/-- A key that is read is of the kind that was asked for. -/
theorem algorithm_of_decode (h : decode text algorithm = .ok key) : key.algorithm = algorithm := by
  obtain ⟨_, _, _, _, henvelope⟩ := decode_eq_ok_iff.1 h
  exact (algorithm_of_ofEnvelope? henvelope).2

/-- The kind of a key that can be read is found, whatever kind is declared. -/
theorem detect_of_decode (h : decode text algorithm = .ok key) (declared : Algorithm) :
    detect text declared = .ok (some algorithm) := by
  obtain ⟨bytes, envelope, hbytes, hread, henvelope⟩ := decode_eq_ok_iff.1 h
  refine readKeyText_eq_ok_iff.2 ⟨bytes, hbytes, ?_⟩
  simp [hread, (algorithm_of_ofEnvelope? henvelope).1]

end PublicKey

namespace PrivateKey

variable {text : String} {algorithm : Algorithm} {key : PrivateKey}

/-- A private key is read when the text stands for an envelope with such a key in it. -/
theorem decode_eq_ok_iff :
    decode text algorithm = .ok key ↔
      ∃ bytes envelope, keyBytes text = .ok bytes ∧ PrivateEnvelope.read? bytes = some envelope ∧
        ofEnvelope? algorithm envelope = some key := by
  rw [decode, readKeyText_eq_ok_iff]
  simp only [Option.bind_eq_bind, Option.bind_eq_some_iff, exists_and_left]

/-- An envelope holds a key of a kind when it names this kind and its bytes are a key by the rules
of this kind. -/
theorem ofEnvelope?_eq_some_iff {envelope : PrivateEnvelope} :
    ofEnvelope? algorithm envelope = some key ↔
      envelope.algorithm = .ofAlgorithm algorithm ∧
        match algorithm with
        | .ec => ∃ secret, P256.SecretKey.ofDer? envelope.key = some secret ∧ .ec secret = key
        | .rsa => ∃ numbers, Rsa.PrivateKey.ofDer? envelope.key = some numbers ∧
            .rsa numbers = key := by
  by_cases hnamed : envelope.algorithm = .ofAlgorithm algorithm
  · cases algorithm <;> simp [ofEnvelope?, hnamed]
  · simp [ofEnvelope?, hnamed]

/-- An envelope that holds a key of a kind names this kind, and the key is of this kind. -/
theorem algorithm_of_ofEnvelope? {envelope : PrivateEnvelope}
    (h : ofEnvelope? algorithm envelope = some key) :
    envelope.algorithm = .ofAlgorithm algorithm ∧ key.algorithm = algorithm := by
  obtain ⟨hnamed, h⟩ := ofEnvelope?_eq_some_iff.1 h
  refine ⟨hnamed, ?_⟩
  cases algorithm with
  | ec =>
      obtain ⟨secret, -, rfl⟩ := h
      rfl
  | rsa =>
      obtain ⟨numbers, -, rfl⟩ := h
      rfl

/-- A key that is read is of the kind that was asked for. -/
theorem algorithm_of_decode (h : decode text algorithm = .ok key) : key.algorithm = algorithm := by
  obtain ⟨_, _, _, _, henvelope⟩ := decode_eq_ok_iff.1 h
  exact (algorithm_of_ofEnvelope? henvelope).2

/-- The kind of a key that can be read is found, whatever kind is declared. -/
theorem detect_of_decode (h : decode text algorithm = .ok key) (declared : Algorithm) :
    detect text declared = .ok (some algorithm) := by
  obtain ⟨bytes, envelope, hbytes, hread, henvelope⟩ := decode_eq_ok_iff.1 h
  refine readKeyText_eq_ok_iff.2 ⟨bytes, hbytes, ?_⟩
  simp [hread, (algorithm_of_ofEnvelope? henvelope).1]

end PrivateKey

end SigningKeys
