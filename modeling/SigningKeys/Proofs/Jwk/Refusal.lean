import SigningKeys.Jwk.Json
import SigningKeys.Proofs.Jwk.Build
import SigningKeys.Proofs.Key.Detection
import SigningKeys.Proofs.Number.BigEndian

/-!
# Why no key is built

When no JSON Web Key can be built, the error tells a key of the wrong kind from a broken one. Each
half is asked for its kind and then read (`readExpected`), and of the two only the first can find a
wrong kind, since what is read is of the kind that was asked for. The main statement is
`Jwk.errors_classified`. Building can be given further tests, of the point, of the length of the
members and of the algorithm that is set; nothing fails these (`Jwk.ofKeysTested_eq`).
-/

namespace SigningKeys

/-! ## Kinds -/

/-- The word for a kind of key in an error; `none` is a kind that is not known here. -/
def kindWord : Option Algorithm → String
  | some algorithm => algorithm.tag
  | none => "unknown"

/-- The error that a key is of another kind than expected. -/
def Error.ofKind (expected : Algorithm) (actual : Option Algorithm) : Error :=
  .typeMismatch expected.tag (kindWord actual)

/-- A kind that is not as expected is refused. -/
theorem expectAlgorithm_of_ne {expected : Algorithm} {actual : Option Algorithm}
    (h : actual ≠ some expected) :
    expectAlgorithm expected actual = .error (.ofKind expected actual) := by
  cases actual with
  | none => rfl
  | some actual => exact if_neg fun heq ↦ h (congrArg some heq)

/-- A key without the common exponent is an RSA key with another one. -/
theorem PublicKey.not_hasCommonExponent_iff {key : PublicKey} :
    ¬ key.HasCommonExponent ↔ ∃ numbers, key = .rsa numbers ∧ numbers.exponent ≠ 65537 := by
  cases key with
  | ec point => simp [HasCommonExponent]
  | rsa numbers => simp [HasCommonExponent, Rsa.commonExponent]

variable {algorithm : Algorithm} {publicKey : PublicKey} {privateKey : Option PrivateKey}

/-! ## Building from keys -/

namespace Jwk

variable {keyId : String} {error : Error}

/-- From halves that are not all of the stated kind no key is built, and the error names the kind of
one of them that is not. -/
theorem ofKeys_of_not_areOfKind (h : ¬ AreOfKind algorithm publicKey privateKey) :
    ∃ actual ≠ algorithm,
      ofKeys keyId algorithm publicKey privateKey = .error (.ofKind algorithm (some actual)) := by
  have hother : ∀ {kind : Algorithm}, kind ≠ algorithm →
      expectAlgorithm algorithm (some kind) = .error (.ofKind algorithm (some kind)) :=
    fun hne ↦ expectAlgorithm_of_ne (by simpa using hne)
  by_cases hpublic : publicKey.algorithm = algorithm
  · cases privateKey with
    | none => exact absurd ⟨hpublic, by simp⟩ h
    | some key =>
        have hne : key.algorithm ≠ algorithm := fun hkey ↦ h ⟨hpublic, by simpa using hkey⟩
        refine ⟨key.algorithm, hne, ?_⟩
        simp only [ofKeys, hpublic, expectAlgorithm_self, hother hne, bind, Except.bind]
  · refine ⟨publicKey.algorithm, hpublic, ?_⟩
    simp only [ofKeys, hother hpublic, bind, Except.bind]

/-- Building from keys succeeds, or the exponent is not the common one, or a half is of another kind
than the stated one. -/
theorem ofKeys_cases (keyId : String) (algorithm : Algorithm) (publicKey : PublicKey)
    (privateKey : Option PrivateKey) :
    (AreOfKind algorithm publicKey privateKey ∧ publicKey.HasCommonExponent ∧
      ∃ jwk, ofKeys keyId algorithm publicKey privateKey = .ok jwk) ∨
    (AreOfKind algorithm publicKey privateKey ∧ ¬ publicKey.HasCommonExponent ∧
      ofKeys keyId algorithm publicKey privateKey = .error (.ofKey .rsa .foreignExponent)) ∨
    (¬ AreOfKind algorithm publicKey privateKey ∧ ∃ actual ≠ algorithm,
      ofKeys keyId algorithm publicKey privateKey = .error (.ofKind algorithm (some actual))) := by
  by_cases hkind : AreOfKind algorithm publicKey privateKey
  · by_cases hexponent : publicKey.HasCommonExponent
    · exact .inl ⟨hkind, hexponent, hkind.exists_ofKeys_iff.2 hexponent⟩
    · have hmaterial := hkind.material_eq_error_iff.2 ⟨hexponent, rfl⟩
      exact .inr (.inl ⟨hkind, hexponent, by rw [hkind.ofKeys_eq, hmaterial]; rfl⟩)
  · exact .inr (.inr ⟨hkind, ofKeys_of_not_areOfKind hkind⟩)

/-- From halves of the stated kind, an error is that the key is not encoded. -/
theorem error_of_areOfKind (h : AreOfKind algorithm publicKey privateKey)
    (herror : ofKeys keyId algorithm publicKey privateKey = .error error) :
    ∃ reason, error = .ofKey algorithm reason := by
  rcases ofKeys_cases keyId algorithm publicKey privateKey with
    ⟨-, -, jwk, hjwk⟩ | ⟨-, hexponent, hforeign⟩ | ⟨hkind, -⟩
  · cases hjwk.symm.trans herror
  · cases hforeign.symm.trans herror
    obtain ⟨numbers, rfl, -⟩ := PublicKey.not_hasCommonExponent_iff.1 hexponent
    cases h.1
    exact ⟨_, rfl⟩
  · exact absurd h hkind

/-- From two halves of the stated kind, an error is that the key is not encoded, be it that they do
not belong together. -/
theorem error_of_halves {privateKey : PrivateKey}
    (h : AreOfKind algorithm publicKey (some privateKey))
    (herror : KeyPair.ofHalves publicKey privateKey >>= ofPair keyId = .error error) :
    ∃ reason, error = .ofKey algorithm reason := by
  obtain ⟨rfl, hprivate⟩ := h
  have hkind : privateKey.algorithm = publicKey.algorithm := hprivate privateKey rfl
  rcases bind_eq_error_iff.1 herror with hpair | ⟨pair, hpair, hjwk⟩
  · rw [KeyPair.ofHalves, if_neg (not_not_intro hkind)] at hpair
    split at hpair
    · cases hpair
    · cases hpair
      exact ⟨.notAPair, rfl⟩
  · obtain ⟨rfl, rfl⟩ := KeyPair.ofHalves_eq_ok_iff.1 hpair
    exact error_of_areOfKind pair.areOfKind hjwk

end Jwk

/-! ## Tests that nothing fails -/

/-- Bytes of the length that the members of a key on the curve P-256 must have. -/
def asCoordinate (bytes : List UInt8) : Except Error (List UInt8) :=
  if bytes.length = coordinateLength then .ok bytes
  else .error (.ofKey .ec (.malformed .numbers))

/-- Key material of this kind signs with the algorithm. -/
def JwsAlgorithm.suits : JwsAlgorithm → JwkKey → Bool
  | .es256, .ec .. => true
  | .rs256, .rsa .. => true
  | .hs256, .shared _ => true
  | _, _ => false

namespace JwkKey

/-- The key material of a point and perhaps its secret key, if the point is not the neutral element
and every member has the right length. -/
def ofEcTested (point : P256.Coordinates) (secret : Option P256.SecretKey) :
    Except Error JwkKey :=
  match point with
  | none => .error (.ofKey .ec .identityPoint)
  | some (x, y) => do
      let d ← secret.mapM fun secret ↦ asCoordinate secret.bytes
      let x ← asCoordinate (BigEndian.padded P256.byteCount x)
      let y ← asCoordinate (BigEndian.padded P256.byteCount y)
      pure (.ec x y d)

/-- The key material of a public key and perhaps a private one, with the tests of its members. -/
def ofKeysTested : PublicKey → Option PrivateKey → Except Error JwkKey
  | .ec point, none => ofEcTested point.coordinates none
  | .ec point, some (.ec secret) => ofEcTested point.coordinates (some secret)
  | .rsa key, none => ofRsa key none
  | .rsa key, some (.rsa secret) => ofRsa key (some secret)
  | publicKey, some privateKey =>
      .error (.typeMismatch publicKey.algorithm.tag privateKey.algorithm.tag)

/-- A point is not the neutral element, and all members of a key have the right length. -/
theorem ofEcTested_coordinates (point : P256.Point) (secret : Option P256.SecretKey) :
    ofEcTested point.coordinates secret = .ok (ofEc point secret) := by
  have hmember : ∀ n, asCoordinate (BigEndian.padded P256.byteCount n) =
      .ok (BigEndian.padded P256.byteCount n) := fun n ↦ if_pos (BigEndian.length_padded _ _)
  cases secret with
  | none =>
      simp only [ofEcTested, P256.Point.coordinates, hmember, Option.mapM_none, bind, Except.bind,
        pure, Except.pure, ofEc, Option.map_none]
  | some secret =>
      simp only [ofEcTested, P256.Point.coordinates, P256.SecretKey.bytes, hmember,
        Option.mapM_some, Functor.map, Except.map, bind, Except.bind, pure, Except.pure, ofEc,
        Option.map_some]

/-- The tests of the members change nothing. -/
theorem ofKeysTested_eq (publicKey : PublicKey) (privateKey : Option PrivateKey) :
    ofKeysTested publicKey privateKey = ofKeys publicKey privateKey := by
  match publicKey, privateKey with
  | .ec _, none => exact ofEcTested_coordinates _ _
  | .ec _, some (.ec _) => exact ofEcTested_coordinates _ _
  | .rsa _, none => rfl
  | .rsa _, some (.rsa _) => rfl
  | .ec _, some (.rsa _) => rfl
  | .rsa _, some (.ec _) => rfl

/-- Key material signs with the algorithm of the key that it is made of. -/
theorem suits_of_ofKeys {key : JwkKey} (h : ofKeys publicKey privateKey = .ok key) :
    publicKey.algorithm.jws.suits key = true := by
  rcases ofKeys_cases h with ⟨point, secret, rfl, -, rfl⟩ | ⟨numbers, secret, rfl, -, -, rfl⟩
  · rfl
  · rfl

end JwkKey

namespace Jwk

/-- Builds a key with all tests: of the kinds of both halves, of the members, and of the algorithm
that is set. -/
def ofKeysTested (keyId : String) (algorithm : Algorithm) (publicKey : PublicKey)
    (privateKey : Option PrivateKey) : Except Error Jwk := do
  expectAlgorithm algorithm (some publicKey.algorithm)
  match privateKey with
  | some privateKey => expectAlgorithm algorithm (some privateKey.algorithm)
  | none => pure ()
  let key ← JwkKey.ofKeysTested publicKey privateKey
  if algorithm.jws.suits key then pure (signature keyId algorithm key)
  else .error (.general (.described "mismatched algorithm for key type"))

/-- Building with all tests comes to the same: what would fail one of the further ones does not get
so far. -/
theorem ofKeysTested_eq (keyId : String) (algorithm : Algorithm) (publicKey : PublicKey)
    (privateKey : Option PrivateKey) :
    ofKeysTested keyId algorithm publicKey privateKey =
      ofKeys keyId algorithm publicKey privateKey := by
  simp only [ofKeysTested, ofKeys, JwkKey.ofKeysTested_eq]
  by_cases hpublic : publicKey.algorithm = algorithm
  · -- The last test comes after the first comparison, so it is one of the key's own algorithm.
    have hsuits : (JwkKey.ofKeys publicKey privateKey >>= fun key ↦
        if algorithm.jws.suits key = true then pure (signature keyId algorithm key)
        else .error (.general (.described "mismatched algorithm for key type"))) =
        JwkKey.ofKeys publicKey privateKey >>= fun key ↦
          pure (signature keyId algorithm key) := by
      cases hkey : JwkKey.ofKeys publicKey privateKey with
      | error error => rfl
      | ok key => exact if_pos (hpublic ▸ JwkKey.suits_of_ofKeys hkey)
    cases privateKey with
    | none => simp only [hsuits]
    | some secret => simp only [hsuits]
  · rw [expectAlgorithm_of_ne (by simpa using hpublic)]
    rfl

end Jwk

/-! ## Building from texts -/

/-- The text is the envelope of a public key that names a kind of key; `none` is any other
algorithm. -/
def PublicKey.Names (text : String) (named : Option Algorithm) : Prop :=
  ∃ bytes envelope, keyBytes text = .ok bytes ∧ PublicEnvelope.read? bytes = some envelope ∧
    envelope.algorithm.algorithm? = named

/-- The text is the envelope of a private key that names a kind of key; `none` is any other
algorithm. -/
def PrivateKey.Names (text : String) (named : Option Algorithm) : Prop :=
  ∃ bytes envelope, keyBytes text = .ok bytes ∧ PrivateEnvelope.read? bytes = some envelope ∧
    envelope.algorithm.algorithm? = named

/-- The kind that is found in a public text is the one that its envelope names. -/
theorem PublicKey.detect_eq_ok_iff {text : String} {declared : Algorithm}
    {named : Option Algorithm} : detect text declared = .ok named ↔ Names text named := by
  simp [detect, readKeyText_eq_ok_iff, Option.bind_eq_some_iff, Names]

/-- The kind that is found in a private text is the one that its envelope names. -/
theorem PrivateKey.detect_eq_ok_iff {text : String} {declared : Algorithm}
    {named : Option Algorithm} : detect text declared = .ok named ↔ Names text named := by
  simp [detect, readKeyText_eq_ok_iff, Option.bind_eq_some_iff, Names]

/-- The texts name another kind of key than the stated one: the public text does, or it is read as a
key of the stated kind and the private text, which is there, does. -/
def NamesOther (publicText : String) (privateText : Option String) (algorithm : Algorithm)
    (named : Option Algorithm) : Prop :=
  named ≠ some algorithm ∧
    (PublicKey.Names publicText named ∨
      (∃ key, PublicKey.decode publicText algorithm = .ok key) ∧
        ∃ text, privateText = some text ∧ PrivateKey.Names text named)

/-- Reads a key after its envelope was asked for its kind. -/
def readExpected {Key : Type} (algorithm : Algorithm)
    (detected : Except Error (Option Algorithm)) (read : Except Error Key) : Except Error Key := do
  expectAlgorithm algorithm (← detected)
  read

/-- Where the stated kind is found, the key is read. -/
theorem readExpected_self {Key : Type} (algorithm : Algorithm) (read : Except Error Key) :
    readExpected algorithm (.ok (some algorithm)) read = read := by
  simp only [readExpected, bind, Except.bind, expectAlgorithm_self]

/-- Where another kind is found, this is the error. -/
theorem readExpected_of_ne {Key : Type} {algorithm : Algorithm} {named : Option Algorithm}
    (h : named ≠ some algorithm) (read : Except Error Key) :
    readExpected algorithm (.ok named) read = .error (.ofKind algorithm named) := by
  simp only [readExpected, bind, Except.bind, expectAlgorithm_of_ne h]

/-- A half is read, or it is of another kind, or it is broken. -/
theorem Agree.readExpected_cases {Key : Type} {kind : Key → Algorithm}
    {detect : Algorithm → Except Error (Option Algorithm)} {decode : Algorithm → Except Error Key}
    (h : Agree kind detect decode) (algorithm : Algorithm) :
    (∃ key, decode algorithm = .ok key ∧
      readExpected algorithm (detect algorithm) (decode algorithm) = .ok key) ∨
    (∃ named, detect algorithm = .ok named ∧ named ≠ some algorithm) ∨
    ∃ reason, readExpected algorithm (detect algorithm) (decode algorithm) =
      .error (.ofKey algorithm reason) := by
  cases hdetect : detect algorithm with
  | error error =>
      obtain ⟨reason, rfl⟩ := h.detect_error _ _ hdetect
      exact .inr (.inr ⟨reason, rfl⟩)
  | ok named =>
      by_cases hnamed : named = some algorithm
      · rw [hnamed, readExpected_self]
        cases hdecode : decode algorithm with
        | ok key => exact .inl ⟨key, rfl, rfl⟩
        | error error =>
            obtain ⟨reason, rfl⟩ := h.decode_error _ _ hdecode
            exact .inr (.inr ⟨reason, rfl⟩)
      · exact .inr (.inl ⟨named, rfl, hnamed⟩)

namespace Jwk

variable {keyId publicText : String} {privateText : Option String} {named : Option Algorithm}
  {error : Error}

/-- Building from texts reads each half after asking for its kind, and builds from what was read. -/
theorem ofTexts_eq (keyId publicText : String) (privateText : Option String)
    (algorithm : Algorithm) :
    ofTexts keyId publicText privateText algorithm =
      (do
        let publicKey ← readExpected algorithm (PublicKey.detect publicText algorithm)
          (PublicKey.decode publicText algorithm)
        match privateText with
        | none => ofKeys keyId algorithm publicKey none
        | some privateText => do
            let privateKey ← readExpected algorithm (PrivateKey.detect privateText algorithm)
              (PrivateKey.decode privateText algorithm)
            let pair ← KeyPair.ofHalves publicKey privateKey
            ofPair keyId pair) := by
  cases privateText <;> simp [ofTexts, readExpected, bind_assoc]

/-- If the texts name another kind of key, this is the error. -/
theorem ofTexts_of_namesOther (h : NamesOther publicText privateText algorithm named) :
    ofTexts keyId publicText privateText algorithm = .error (.ofKind algorithm named) := by
  obtain ⟨hnamed, hpublic | ⟨⟨key, hkey⟩, privateText, rfl, hprivate⟩⟩ := h
  · rw [ofTexts_eq, PublicKey.detect_eq_ok_iff.2 hpublic, readExpected_of_ne hnamed]
    rfl
  · simp only [ofTexts_eq, hkey, PublicKey.detect_of_decode hkey, readExpected_self,
      PrivateKey.detect_eq_ok_iff.2 hprivate, readExpected_of_ne hnamed, bind, Except.bind]

/-- If the texts name no other kind of key, an error is that the key is not encoded. -/
theorem error_of_not_namesOther (h : ∀ named, ¬ NamesOther publicText privateText algorithm named)
    (herror : ofTexts keyId publicText privateText algorithm = .error error) :
    ∃ reason, error = .ofKey algorithm reason := by
  rw [ofTexts_eq] at herror
  rcases (PublicKey.agree publicText).readExpected_cases algorithm with
    ⟨publicKey, hpublic, hread⟩ | ⟨named, hdetect, hnamed⟩ | ⟨reason, hread⟩
  · have hkind := PublicKey.algorithm_of_decode hpublic
    rw [hread] at herror
    cases privateText with
    | none =>
        have hkeys : ofKeys keyId algorithm publicKey none = .error error := herror
        exact error_of_areOfKind ⟨hkind, by simp⟩ hkeys
    | some privateText =>
        rcases (PrivateKey.agree privateText).readExpected_cases algorithm with
          ⟨privateKey, hprivate, hreadPrivate⟩ | ⟨named, hdetect, hnamed⟩ | ⟨reason, hreadPrivate⟩
        · simp only [bind, Except.bind, hreadPrivate] at herror
          refine error_of_halves ⟨hkind, ?_⟩ herror
          simpa using PrivateKey.algorithm_of_decode hprivate
        · exact absurd ⟨hnamed, .inr ⟨⟨publicKey, hpublic⟩, privateText, rfl,
            PrivateKey.detect_eq_ok_iff.1 hdetect⟩⟩ (h named)
        · simp only [bind, Except.bind, hreadPrivate] at herror
          cases herror
          exact ⟨reason, rfl⟩
  · exact absurd ⟨hnamed, .inl (PublicKey.detect_eq_ok_iff.1 hdetect)⟩ (h named)
  · rw [hread] at herror
    cases herror
    exact ⟨reason, rfl⟩

/-- Every error of building from texts is that the key of the stated kind is not encoded, or that it
is of another kind, and it is the latter exactly when the texts name another kind, which it repeats.
Building from keys fails with a kind exactly when a half is of another one than is stated, and with
an encoding exactly when all are RSA keys and the exponent is not the common one. It fails in no
other way, and no test of the point, of the members or of the algorithm ever fails. -/
theorem errors_classified (keyId : String) (algorithm : Algorithm) :
    (∀ publicText privateText,
      (∀ error, ofTexts keyId publicText privateText algorithm = .error error →
        (∃ reason, error = .ofKey algorithm reason) ∨
          ∃ actual, error = .typeMismatch algorithm.tag actual) ∧
      ∀ expected actual,
        ofTexts keyId publicText privateText algorithm = .error (.typeMismatch expected actual) ↔
          expected = algorithm.tag ∧ ∃ named, kindWord named = actual ∧
            NamesOther publicText privateText algorithm named) ∧
    ∀ publicKey privateKey,
      ofKeysTested keyId algorithm publicKey privateKey =
        ofKeys keyId algorithm publicKey privateKey ∧
      ((∃ expected actual, ofKeys keyId algorithm publicKey privateKey =
          .error (.typeMismatch expected actual)) ↔
        ¬ AreOfKind algorithm publicKey privateKey) ∧
      ((∃ tag reason, ofKeys keyId algorithm publicKey privateKey =
          .error (.invalidKey tag reason)) ↔
        AreOfKind algorithm publicKey privateKey ∧
          ∃ key, publicKey = .rsa key ∧ key.exponent ≠ 65537) ∧
      ((∃ jwk, ofKeys keyId algorithm publicKey privateKey = .ok jwk) ↔
        AreOfKind algorithm publicKey privateKey ∧ publicKey.HasCommonExponent) ∧
      ∀ error, ofKeys keyId algorithm publicKey privateKey = .error error →
        error = .ofKey .rsa .foreignExponent ∨
          ∃ actual, error = .typeMismatch algorithm.tag actual := by
  refine ⟨fun publicText privateText ↦ ⟨fun error herror ↦ ?_, fun expected actual ↦ ?_⟩,
    fun publicKey privateKey ↦ ⟨ofKeysTested_eq keyId algorithm publicKey privateKey, ?_⟩⟩
  · by_cases hnames : ∃ named, NamesOther publicText privateText algorithm named
    · obtain ⟨named, hnamed⟩ := hnames
      cases herror.symm.trans (ofTexts_of_namesOther hnamed)
      exact .inr ⟨_, rfl⟩
    · exact .inl (error_of_not_namesOther (not_exists.1 hnames) herror)
  · constructor
    · intro herror
      by_cases hnames : ∃ named, NamesOther publicText privateText algorithm named
      · obtain ⟨named, hnamed⟩ := hnames
        cases herror.symm.trans (ofTexts_of_namesOther hnamed)
        exact ⟨rfl, named, rfl, hnamed⟩
      · obtain ⟨reason, hreason⟩ := error_of_not_namesOther (not_exists.1 hnames) herror
        cases hreason
    · rintro ⟨rfl, named, rfl, hnamed⟩
      exact ofTexts_of_namesOther hnamed
  · rw [← PublicKey.not_hasCommonExponent_iff]
    rcases ofKeys_cases keyId algorithm publicKey privateKey with
      ⟨hkind, hexponent, jwk, hjwk⟩ | ⟨hkind, hexponent, herror⟩ | ⟨hkind, actual, -, herror⟩
    · simp [hjwk, hkind, hexponent]
    · simp [herror, hkind, hexponent, Error.ofKey]
    · simp [herror, hkind, Error.ofKey, Error.ofKind, eq_comm]

/-- The small public key is of the wrong kind where a point is stated, a key of another algorithm is
of an unknown kind, a point's secret is of the wrong kind beside the small public key, and an empty
text is broken. A public key with the exponent 3 is not built from. -/
theorem errors_classified_small :
    let other := "MCowBQYDK2VwAyEAAAAAAAAAAAAAAAAAAAAAAAAAAAAAAAAAAAAAAAAAAAA="
    let secret :=
      "MEECAQAwEwYHKoZIzj0CAQYIKoZIzj0DAQcEJzAlAgEBBCAAAAAAAAAAAAAAAAAAAAAAAAAAAAAAAAAAAA" ++
        "AAAAAAAQ=="
    let foreign := PublicKey.rsa ⟨55, 3, by decide⟩
    ofTexts "small" smallPublicText none .ec = .error (.typeMismatch "EC" "RSA") ∧
      ofTexts "small" other (some smallPrivateText) .rsa =
        .error (.typeMismatch "RSA" "unknown") ∧
      ofTexts "small" smallPublicText (some secret) .rsa = .error (.typeMismatch "RSA" "EC") ∧
      (∃ reason, ofTexts "small" "" none .rsa = .error (.ofKey .rsa reason)) ∧
      (∃ tag reason, ofKeys "small" .rsa foreign none = .error (.invalidKey tag reason)) ∧
      ∃ expected actual, ofKeys "small" .ec foreign none =
        .error (.typeMismatch expected actual) := by
  intro other secret foreign
  obtain ⟨hec, hecKeys⟩ := errors_classified "small" .ec
  obtain ⟨hrsa, hrsaKeys⟩ := errors_classified "small" .rsa
  have hpublic : PublicKey.decode smallPublicText .rsa = .ok (.rsa smallKey.publicKey) := by
    decide +kernel
  have hpublicKind : PublicKey.Names smallPublicText (some .rsa) :=
    PublicKey.detect_eq_ok_iff.1 (PublicKey.detect_of_decode hpublic .rsa)
  have hotherKind : PublicKey.Names other none := by
    have hdetect : PublicKey.detect other .rsa = .ok none := by decide +kernel
    exact PublicKey.detect_eq_ok_iff.1 hdetect
  have hsecretKind : PrivateKey.Names secret (some .ec) := by
    have hdetect : PrivateKey.detect secret .rsa = .ok (some .ec) := by decide +kernel
    exact PrivateKey.detect_eq_ok_iff.1 hdetect
  have hempty : ofTexts "small" "" none .rsa = .error (.ofKey .rsa .emptyText) := by decide +kernel
  refine ⟨?_, ?_, ?_, ?_, ?_, ?_⟩
  · exact ((hec smallPublicText none).2 _ _).2 ⟨rfl, some .rsa, rfl, by decide, .inl hpublicKind⟩
  · exact ((hrsa other (some smallPrivateText)).2 _ _).2
      ⟨rfl, none, rfl, by decide, .inl hotherKind⟩
  · exact ((hrsa smallPublicText (some secret)).2 _ _).2
      ⟨rfl, some .ec, rfl, by decide, .inr ⟨⟨_, hpublic⟩, secret, rfl, hsecretKind⟩⟩
  · rcases (hrsa "" none).1 _ hempty with ⟨reason, hreason⟩ | ⟨actual, hactual⟩
    · exact ⟨reason, hempty.trans (congrArg Except.error hreason)⟩
    · cases hactual
  · exact (hrsaKeys foreign none).2.2.1.2 ⟨foreign.areOfKind, _, rfl, by decide⟩
  · exact (hecKeys foreign none).2.1.2 fun hkind ↦ by cases hkind.1

end Jwk

end SigningKeys
