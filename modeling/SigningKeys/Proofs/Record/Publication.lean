import SigningKeys.Proofs.Generator
import SigningKeys.Proofs.Jwk.Build
import SigningKeys.Proofs.Record.Issue
import SigningKeys.Proofs.Store
import SigningKeys.Record.Publication

/-!
# Published records

When a new record can be published, and how writing changes the key set of a store. Whether a record
signs does not show in its key for verifying, so retiring a stored record changes no set
(`Store.keySet_put_retired`), and a new record adds its key at the end
(`Store.keySet_put_of_not_mem`).
-/

namespace SigningKeys

/-! ## Keys that can be published -/

/-- The key can be read back, and its exponent, if it has one, is the one that is published. -/
def PublicKey.IsPublishable : PublicKey → Prop
  | .ec _ => True
  | .rsa key =>
      key.exponent = Rsa.commonExponent ∧ BigEndian.bitLength key.modulus ≤ maxModulusBits

/-- What can be published can be read back. -/
theorem PublicKey.IsPublishable.isReadable {key : PublicKey} (h : key.IsPublishable) :
    key.IsReadable := by
  cases key with
  | ec point => trivial
  | rsa key => exact h.2

/-- What can be published has the exponent that JSON Web Keys are built with. -/
theorem PublicKey.IsPublishable.hasCommonExponent {key : PublicKey} (h : key.IsPublishable) :
    key.HasCommonExponent := by
  cases key with
  | ec point => trivial
  | rsa key => exact h.1

/-- The generator hands out pairs of its own kind whose public halves can be published. -/
def Generator.IsPublishable (generator : Generator) : Prop :=
  ∀ entropy pair, generator.generate entropy = .ok pair →
    pair.algorithm = generator.algorithm ∧ pair.publicKey.IsPublishable

/-- The generator of keys on the curve P-256 hands out keys that can be published. -/
theorem Generator.ec_isPublishable : Generator.ec.IsPublishable := by
  intro entropy pair h
  obtain ⟨secret, rfl⟩ := exists_of_generate_ec h
  exact ⟨rfl, trivial⟩

/-- The generator of RSA keys of a permitted size hands out keys that can be published. -/
theorem Generator.rsa_isPublishable {bits : Nat} {generator : Generator}
    (h : Generator.rsa bits = .ok generator) : generator.IsPublishable := by
  intro entropy pair hpair
  obtain ⟨hkind, hbits, key, hdraw, rfl⟩ := exists_of_generate_rsa h hpair
  obtain ⟨hexponent, hsize, -⟩ := Rsa.PrivateKey.of_draw? hdraw
  exact ⟨hkind.symm, hexponent, hsize ▸ hbits⟩

/-- A generator that draws keys hands out keys that can be published. -/
theorem Generator.Draws.isPublishable {generator : Generator} (h : generator.Draws) :
    generator.IsPublishable := by
  cases h with
  | ec => exact ec_isPublishable
  | rsa hgenerator => exact rsa_isPublishable hgenerator

/-! ## Keys from texts -/

/-- Building a key for verifying from the text of a readable key is building it from the key. -/
theorem Jwk.ofTexts_encode {key : PublicKey} {text : String} (hreadable : key.IsReadable)
    (h : key.encode = .ok text) (keyId : String) :
    Jwk.ofTexts keyId text none key.algorithm = Jwk.ofPublic keyId key :=
  ofTexts_of_decode (PublicKey.decode_encode hreadable h)

/-- A new record can be published if the default generator hands out nothing else. -/
theorem Registry.exists_publicJwk_of_issue {registry : Registry} {draw : Draw} {record : Record}
    (hgenerator : registry.defaultGenerator.IsPublishable) (h : registry.issue draw = .ok record) :
    ∃ key, record.publicJwk = .ok key := by
  obtain ⟨generator, pair, publicText, privateText, hfind, hpair, htexts, rfl⟩ :=
    issueFor_eq_ok_iff.1 h
  have hdefault : registry.defaultGenerator = generator := by simp [defaultGenerator, hfind]
  rw [hdefault] at hgenerator
  obtain ⟨hkind, hpublic⟩ := hgenerator _ _ hpair
  have halgorithm : pair.publicKey.algorithm = registry.default :=
    hkind.trans (algorithm_of_find? hfind)
  obtain ⟨key, hkey⟩ : ∃ key, Jwk.ofPublic draw.keyId pair.publicKey = .ok key :=
    Jwk.exists_ofPublic_iff.2 hpublic.hasCommonExponent
  refine ⟨key, ?_⟩
  show Jwk.ofTexts draw.keyId publicText none registry.default = _
  rw [← halgorithm, Jwk.ofTexts_encode hpublic.isReadable (KeyPair.encode_eq_ok_iff.1 htexts).1,
    hkey]

/-! ## Key sets -/

/-- A retired copy is published as the record itself. -/
theorem Record.publicJwk_retired (record : Record) : record.retired.publicJwk = record.publicJwk :=
  rfl

/-- The set depends on the keys of the records alone. -/
theorem JwkSet.ofRecords_congr {records others : List Record}
    (h : records.map Record.publicJwk = others.map Record.publicJwk) :
    JwkSet.ofRecords records = JwkSet.ofRecords others := by
  -- The records enter through the list of their keys only.
  have hmap : ∀ records : List Record,
      records.mapM Record.publicJwk = (records.map Record.publicJwk).mapM id := by
    intro records
    rw [List.mapM_map]
    rfl
  rw [ofRecords, ofRecords, hmap, h, ← hmap]

/-- The set of one more record in front. -/
theorem JwkSet.ofRecords_cons (record : Record) (records : List Record) :
    JwkSet.ofRecords (record :: records) =
      (do
        let key ← record.publicJwk
        let set ← JwkSet.ofRecords records
        pure ⟨key :: set.keys⟩) := by
  rw [ofRecords, ofRecords, List.mapM_cons]
  cases record.publicJwk with
  | error error => rfl
  | ok key => cases records.mapM Record.publicJwk <;> rfl

/-- A set has the keys of the records, one for each and in the same order. -/
theorem JwkSet.ofRecords_eq_ok_iff {records : List Record} {keys : List Jwk} :
    JwkSet.ofRecords records = .ok ⟨keys⟩ ↔
      List.Forall₂ (fun record key ↦ record.publicJwk = .ok key) records keys := by
  induction records generalizing keys with
  | nil =>
      show (Except.ok (JwkSet.mk []) : Except Error JwkSet) = .ok ⟨keys⟩ ↔ _
      simp [eq_comm]
  | cons record records ih =>
      rw [ofRecords_cons]
      simp only [bind_eq_ok_iff, List.forall₂_cons_left_iff]
      constructor
      · rintro ⟨key, hkey, ⟨others⟩, hothers, h⟩
        cases h
        exact ⟨key, others, hkey, ih.1 hothers, rfl⟩
      · rintro ⟨key, others, hkey, hothers, rfl⟩
        exact ⟨key, hkey, ⟨others⟩, ih.2 hothers, rfl⟩

/-- One more record adds its key at the end. -/
theorem JwkSet.ofRecords_append_singleton {records : List Record} {keys : List Jwk}
    {record : Record} {key : Jwk} (h : JwkSet.ofRecords records = .ok ⟨keys⟩)
    (hrecord : record.publicJwk = .ok key) :
    JwkSet.ofRecords (records ++ [record]) = .ok ⟨keys ++ [key]⟩ :=
  ofRecords_eq_ok_iff.2 (List.rel_append (ofRecords_eq_ok_iff.1 h) (.cons hrecord .nil))

namespace Store

variable {store : Store} {record : Record}

/-- Retiring a stored record leaves the key set as it is. -/
theorem keySet_put_retired (distinct : store.keyIds.Nodup) (h : record ∈ store.records)
    (listing : Option Error) :
    (store.put record.retired).keySet listing = store.keySet listing := by
  cases listing with
  | some error => rfl
  | none =>
      have hmem : record.retired.keyId ∈ store.keyIds := by
        rw [record.keyId_retired]
        exact keyId_mem h
      refine JwkSet.ofRecords_congr ?_
      rw [records_put_of_mem distinct hmem, List.map_map]
      refine List.map_congr_left fun stored hstored ↦ ?_
      rw [Function.comp_apply]
      split
      · next hid =>
          rw [eq_of_keyId_eq distinct hstored h hid]
          exact record.publicJwk_retired
      · rfl

/-- Writing a record with a new id adds its key at the end of the key set. -/
theorem keySet_put_of_not_mem {keys : List Jwk} {key : Jwk} (h : record.keyId ∉ store.keyIds)
    (hkeys : store.keySet none = .ok ⟨keys⟩) (hrecord : record.publicJwk = .ok key) :
    (store.put record).keySet none = .ok ⟨keys ++ [key]⟩ := by
  show JwkSet.ofRecords (store.put record).records = _
  rw [records_put_of_not_mem h]
  exact JwkSet.ofRecords_append_singleton hkeys hrecord

end Store

end SigningKeys
