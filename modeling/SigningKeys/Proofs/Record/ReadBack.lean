import SigningKeys.Proofs.Key.PrivateText
import SigningKeys.Proofs.Record.Publication

/-!
# Records read back

A record holds a key pair as two texts. What is issued for a pair gives the pair back, and the keys
for signing and for verifying that are built from the texts are those of the pair
(`Registry.issueFor_readsBack`). The pairs of generators that draw keys are all of this kind
(`Generator.Draws.issuable`).
-/

namespace SigningKeys

/-- Both halves of a pair are read from what is written for them. -/
theorem KeyPair.decode_encode {pair : KeyPair} {publicText privateText : String}
    (hreadable : pair.publicKey.IsReadable) (h : pair.encode = .ok (publicText, privateText)) :
    KeyPair.decode publicText privateText pair.algorithm = .ok pair := by
  obtain ⟨hpublic, hprivate⟩ := KeyPair.encode_eq_ok_iff.1 h
  refine KeyPair.decode_eq_ok_iff.2 ⟨PublicKey.decode_encode hreadable hpublic, ?_⟩
  rw [← pair.algorithm_privateKey]
  exact PrivateKey.decode_encode hprivate

namespace Record

variable {record : Record} {pair : KeyPair}

/-- The record stands for the pair: it is read as the pair, and its keys for signing and for
verifying are those of the pair. -/
structure ReadsBack (record : Record) (pair : KeyPair) : Prop where
  decode : KeyPair.decode record.publicText record.privateText record.algorithm = .ok pair
  signingJwk : record.signingJwk = Jwk.ofPair record.keyId pair
  publicJwk : record.publicJwk = Jwk.ofPublic record.keyId pair.publicKey

/-- A record that is read as a pair stands for it. -/
theorem readsBack_of_decode
    (h : KeyPair.decode record.publicText record.privateText record.algorithm = .ok pair) :
    record.ReadsBack pair where
  decode := h
  signingJwk := Jwk.ofTexts_of_decode_pair h
  publicJwk := Jwk.ofTexts_of_decode (KeyPair.decode_eq_ok_iff.1 h).1

/-- A retired copy stands for the pair of the record. -/
theorem ReadsBack.retired (h : record.ReadsBack pair) : record.retired.ReadsBack pair :=
  readsBack_of_decode h.decode

/-- If the exponent is the common one, the record has a key for signing and one for verifying. -/
theorem ReadsBack.exists_jwk (h : record.ReadsBack pair)
    (hexponent : pair.publicKey.HasCommonExponent) :
    (∃ key, record.signingJwk = .ok key) ∧ ∃ key, record.publicJwk = .ok key := by
  rw [h.signingJwk, h.publicJwk]
  exact ⟨Jwk.exists_ofPair_iff.2 hexponent, Jwk.exists_ofPublic_iff.2 hexponent⟩

end Record

/-- The generator that is resolved is the one that is found. -/
theorem Registry.resolve_eq_ok_iff {registry : Registry} {algorithm : Algorithm}
    {generator : Generator} :
    registry.resolve algorithm = .ok generator ↔ registry.find? algorithm = some generator := by
  unfold resolve
  cases registry.find? algorithm <;> simp

/-- The pairs of a generator that draws keys can be issued: they are of its kind, both halves can be
written and read, and the exponent is the common one. -/
theorem Generator.Draws.issuable {generator : Generator} {entropy : Entropy} {pair : KeyPair}
    (h : generator.Draws) (hpair : generator.generate entropy = .ok pair) :
    pair.algorithm = generator.algorithm ∧ pair.publicKey.IsReadable ∧
      pair.publicKey.HasCommonExponent ∧
      ∃ privateText, pair.privateKey.encode = .ok privateText := by
  obtain ⟨hkind, hpublic⟩ := h.isPublishable entropy pair hpair
  exact ⟨hkind, hpublic.isReadable, hpublic.hasCommonExponent, h.exists_encode hpair⟩

/-- Let the generator of a kind of key hand out a pair of this kind, with a modulus of permitted
size if there is one, and let the private half be written. Then a record of this kind is issued,
which signs. It stands for the pair, and so does its retired copy. If the exponent is the common
one, both have keys for signing and for verifying. -/
theorem Registry.issueFor_readsBack {registry : Registry} {algorithm : Algorithm}
    {generator : Generator} {draw : Draw} {pair : KeyPair} {privateText : String}
    (hresolve : registry.resolve algorithm = .ok generator)
    (hpair : generator.generate draw.entropy = .ok pair) (hkind : pair.algorithm = algorithm)
    (hreadable : pair.publicKey.IsReadable)
    (hprivate : pair.privateKey.encode = .ok privateText) :
    ∃ record, registry.issueFor algorithm draw = .ok record ∧ record.isActive = true ∧
      record.algorithm = algorithm ∧
      ∀ copy ∈ [record, record.retired], copy.ReadsBack pair ∧
        (pair.publicKey.HasCommonExponent →
          (∃ key, copy.signingJwk = .ok key) ∧ ∃ key, copy.publicJwk = .ok key) := by
  obtain ⟨publicText, htexts⟩ := KeyPair.exists_encode hprivate
  let record : Record :=
    ⟨draw.keyId, algorithm, publicText, privateText, draw.createdAt, .active⟩
  have hissue : registry.issueFor algorithm draw = .ok record :=
    issueFor_eq_ok_iff.2 ⟨generator, pair, publicText, privateText,
      resolve_eq_ok_iff.1 hresolve, hpair, htexts, rfl⟩
  have hrecord : record.ReadsBack pair := by
    refine Record.readsBack_of_decode ?_
    show KeyPair.decode publicText privateText algorithm = .ok pair
    rw [← hkind]
    exact KeyPair.decode_encode hreadable htexts
  refine ⟨record, hissue, rfl, rfl, ?_⟩
  rintro copy (_ | ⟨_, _ | ⟨_, ⟨⟩⟩⟩)
  · exact ⟨hrecord, hrecord.exists_jwk⟩
  · exact ⟨hrecord.retired, hrecord.retired.exists_jwk⟩

/-- A registry of both kinds of key issues the pair of a scalar that is drawn, and the small key. -/
theorem Registry.issueFor_readsBack_small :
    let registry : Registry := ⟨[.ec, .small], .ec, ⟨.ec, by simp, rfl⟩, by decide⟩
    let draw : Draw := ⟨[], "fresh", .small 0 (by decide)⟩
    let small := KeyPair.ofPrivate (.rsa smallKey)
    (∃ pair record, Generator.ec.generate draw.entropy = .ok pair ∧
      registry.issueFor .ec draw = .ok record ∧ record.ReadsBack pair ∧
      record.retired.ReadsBack pair) ∧
    ∃ record, registry.issueFor .rsa draw = .ok record ∧ record.ReadsBack small ∧
      record.retired.ReadsBack small ∧ ∃ key, record.signingJwk = .ok key := by
  intro registry draw small
  constructor
  · have hdrawn : (Generator.ec.generate draw.entropy).toOption.isSome := by decide +kernel
    obtain ⟨pair, hpair⟩ : ∃ pair, Generator.ec.generate draw.entropy = .ok pair := by
      cases hresult : Generator.ec.generate draw.entropy with
      | error error => simp [hresult, Except.toOption] at hdrawn
      | ok pair => exact ⟨pair, rfl⟩
    obtain ⟨hkind, hreadable, -, privateText, hprivate⟩ := Generator.Draws.ec.issuable hpair
    have hresolve : registry.resolve .ec = .ok .ec := rfl
    obtain ⟨record, hissue, -, -, hcopies⟩ :=
      issueFor_readsBack hresolve hpair hkind hreadable hprivate
    exact ⟨pair, record, hpair, hissue, (hcopies _ (by simp)).1, (hcopies _ (by simp)).1⟩
  · have hresolve : registry.resolve .rsa = .ok .small := rfl
    have hpair : Generator.small.generate draw.entropy = .ok small := rfl
    have hreadable : BigEndian.bitLength smallKey.publicKey.modulus ≤ maxModulusBits := by
      decide +kernel
    obtain ⟨record, hissue, -, -, hcopies⟩ :=
      issueFor_readsBack hresolve hpair rfl hreadable PrivateKey.encode_smallKey
    obtain ⟨hrecord, hjwk⟩ := hcopies record (by simp)
    exact ⟨record, hissue, hrecord, (hcopies _ (by simp)).1, (hjwk rfl).1⟩

end SigningKeys
