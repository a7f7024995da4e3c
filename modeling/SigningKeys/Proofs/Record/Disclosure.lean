import SigningKeys.Jwk.Json
import SigningKeys.Proofs.Record.Publication

/-!
# What a published set discloses

Records that differ only in what is not to be published give the same set, and the keys of a set are
free of everything private, down to the names in their JSON objects. The main statement is
`JwkSet.ofRecords_discloses_nothing`.
-/

namespace SigningKeys

open Json

/-! ## Names of members -/

/-- The value is an object that has a member with the given name. -/
def Json.Value.HasMember (value : Value) (name : String) : Prop :=
  ∃ members, value = .object members ∧ ∃ item, (some name, item) ∈ members

/-- An object has members with the names that it is made with, and no others. -/
theorem Json.Value.hasMember_ofMembers_iff {members : List (String × Value)} {name : String} :
    (Value.ofMembers members).HasMember name ↔ name ∈ members.map Prod.fst := by
  simp [HasMember, ofMembers]

/-- A member that may be left out has its name or none. -/
theorem names_optionalMember_sublist (name : String) (value : Option Value) :
    ((optionalMember name value).map Prod.fst).Sublist [name] := by
  cases value with
  | none => exact List.nil_sublist [name]
  | some value => exact List.Sublist.refl [name]

namespace Jwk

/-- The names of the members that a key for verifying may have, in the order in which they are
written. -/
def publicNames : List String :=
  ["kty", "crv", "x", "y", "e", "n"] ++ ["use"] ++ ["key_ops"] ++ ["kid"] ++ ["alg"] ++
    (["x5u"] ++ ["x5c"] ++ ["x5t"] ++ ["x5t#S256"])

/-- The names of the members that belong to private keys. -/
def privateNames : List String := ["d", "p", "q", "dp", "dq", "qi"]

/-- Key material that cannot sign has public members only. -/
theorem names_material_sublist {key : JwkKey} (h : key.isPrivate = false) :
    (key.toMembers.map Prod.fst).Sublist ["kty", "crv", "x", "y", "e", "n"] := by
  cases key with
  | ec x y d =>
      cases d with
      | none => exact List.sublist_append_left ["kty", "crv", "x", "y"] ["e", "n"]
      | some d => cases h
  | rsa n secret =>
      cases secret with
      | none =>
          show ["kty", "e", "n"].Sublist ["kty", "crv", "x", "y", "e", "n"]
          decide
      | some secret => cases h
  | shared k => cases h

/-- A key that cannot sign has public members only. -/
theorem names_sublist {jwk : Jwk} (h : jwk.isPrivate = false) :
    (jwk.toMembers.map Prod.fst).Sublist publicNames := by
  have hcertificates : (jwk.certificates.toMembers.map Prod.fst).Sublist
      (["x5u"] ++ ["x5c"] ++ ["x5t"] ++ ["x5t#S256"]) := by
    simp only [Certificates.toMembers, List.map_append]
    exact (((names_optionalMember_sublist _ _).append (names_optionalMember_sublist _ _)).append
      (names_optionalMember_sublist _ _)).append (names_optionalMember_sublist _ _)
  have hmaterial := (names_material_sublist h).append
    (names_optionalMember_sublist "use" (jwk.use.map fun use ↦ .text use.name))
  simp only [toMembers, List.map_append]
  exact (((hmaterial.append (names_optionalMember_sublist _ _)).append
    (names_optionalMember_sublist _ _)).append (names_optionalMember_sublist _ _)).append
    hcertificates

/-- A key that cannot sign has no member that belongs to private keys. -/
theorem not_hasMember_of_mem_privateNames {jwk : Jwk} (h : jwk.isPrivate = false) {name : String}
    (hname : name ∈ privateNames) : ¬ jwk.toJson.HasMember name := by
  have hdisjoint : ∀ name ∈ privateNames, name ∉ publicNames := by decide
  rw [toJson, Value.hasMember_ofMembers_iff]
  exact fun hmem ↦ hdisjoint name hname ((names_sublist h).subset hmem)

end Jwk

/-! ## Keys of records -/

/-- Key material that is made of a public key cannot sign. -/
theorem JwkKey.isPrivate_of_ofPublic {publicKey : PublicKey} {key : JwkKey}
    (h : ofKeys publicKey none = .ok key) : key.isPrivate = false := by
  rcases ofKeys_cases h with ⟨point, secret, -, hnone, rfl⟩ | ⟨numbers, secret, -, hnone, -, rfl⟩
  · obtain rfl : secret = none := Option.map_eq_none_iff.1 hnone.symm
    rfl
  · obtain rfl : secret = none := Option.map_eq_none_iff.1 hnone.symm
    rfl

namespace Record

variable {record other : Record}

/-- The records agree in all that is published of them, and perhaps in nothing else. -/
structure AgreesPublicly (record other : Record) : Prop where
  keyId : record.keyId = other.keyId
  algorithm : record.algorithm = other.algorithm
  publicText : record.publicText = other.publicText

/-- Records that agree in what is published have the same key for verifying, if any. -/
theorem AgreesPublicly.publicJwk_eq (h : record.AgreesPublicly other) :
    record.publicJwk = other.publicJwk := by
  rw [publicJwk, publicJwk, h.keyId, h.algorithm, h.publicText]

/-- The key for verifying has the id of its record and cannot sign. -/
theorem publicJwk_spec {key : Jwk} (h : record.publicJwk = .ok key) :
    key.keyId = some record.keyId ∧ key.isPrivate = false := by
  obtain ⟨publicKey, hread⟩ := Jwk.exists_decode_of_ofTexts h
  rw [publicJwk, Jwk.ofTexts_of_decode hread, Jwk.ofPublic_eq] at h
  cases hmaterial : JwkKey.ofKeys publicKey none with
  | error error =>
      rw [hmaterial] at h
      cases h
  | ok material =>
      rw [hmaterial] at h
      cases h
      exact ⟨rfl, JwkKey.isPrivate_of_ofPublic hmaterial⟩

end Record

/-! ## Sets of keys -/

namespace JwkSet

/-- A set fails with the error of the first record that has no key. -/
theorem exists_of_ofRecords_eq_error {records : List Record} {error : Error}
    (h : ofRecords records = .error error) :
    ∃ before record after, records = before ++ record :: after ∧
      (∀ earlier ∈ before, ∃ key, earlier.publicJwk = .ok key) ∧
      record.publicJwk = .error error := by
  induction records with
  | nil => cases h
  | cons record records ih =>
      rw [ofRecords_cons, bind_eq_error_iff] at h
      rcases h with hrecord | ⟨key, hkey, h⟩
      · exact ⟨[], record, records, rfl, by simp, hrecord⟩
      · rcases bind_eq_error_iff.1 h with hrest | ⟨_, _, h⟩
        · obtain ⟨before, failing, after, rfl, hbefore, hfailing⟩ := ih hrest
          refine ⟨record :: before, failing, after, rfl, ?_, hfailing⟩
          rintro earlier (_ | ⟨_, hearlier⟩)
          · exact ⟨key, hkey⟩
          · exact hbefore earlier hearlier
        · cases h

/-- Let two lists of records agree, one by one, in what is published. Then they give the same set,
or the same error. A set has one key for each record, in order, with the id of the record, and none
of these keys can sign or has a member that belongs to private keys. An error is that of the first
record that has no key for verifying. -/
theorem ofRecords_discloses_nothing {records others : List Record}
    (h : List.Forall₂ Record.AgreesPublicly records others) :
    ofRecords records = ofRecords others ∧
    (∀ set, ofRecords records = .ok set →
      List.Forall₂ (fun record key ↦ record.publicJwk = .ok key ∧
        key.keyId = some record.keyId ∧ key.isPrivate = false ∧
        ∀ name ∈ Jwk.privateNames, ¬ key.toJson.HasMember name) records set.keys) ∧
    ∀ error, ofRecords records = .error error →
      ∃ before record after, records = before ++ record :: after ∧
        (∀ earlier ∈ before, ∃ key, earlier.publicJwk = .ok key) ∧
        record.publicJwk = .error error := by
  refine ⟨?_, fun set hset ↦ ?_, fun error ↦ exists_of_ofRecords_eq_error⟩
  · refine ofRecords_congr ?_
    rw [← List.forall₂_eq_eq_eq, List.forall₂_map_left_iff, List.forall₂_map_right_iff]
    exact h.imp fun _ _ hagree ↦ hagree.publicJwk_eq
  · refine (ofRecords_eq_ok_iff.1 hset).imp fun record key hkey ↦ ?_
    obtain ⟨hid, hpublic⟩ := Record.publicJwk_spec hkey
    exact ⟨hkey, hid, hpublic, fun name ↦ Jwk.not_hasMember_of_mem_privateNames hpublic⟩

/-- A point and the small key are published alike after one of them was retired and the private text
of the other one was lost; with a record between them whose public text is empty, nothing is. -/
theorem ofRecords_discloses_nothing_small :
    let first : Record :=
      { Record.small with
        keyId := "point"
        algorithm := .ec
        publicText :=
          "MFkwEwYHKoZIzj0CAQYIKoZIzj0DAQcDQgAEaxfR8uEsQkf4vOblY6RA8ncDfYEt6zOg9KE5RdiYwpZP40" ++
            "Li/hp/m47n60p8D54WK84zV2sxXs7LtkBoN79R9Q==" }
    let second : Record :=
      { Record.small with publicText := smallPublicText, privateText := smallPrivateText }
    let lost := { second with privateText := "" }
    let keys : List Jwk :=
      [.signature "point" .ec (.ofEc P256.base none), .signature "small" .rsa (.rsa [1, 8, 7] none)]
    List.Forall₂ Record.AgreesPublicly [first, second] [first.retired, lost] ∧
      ofRecords [first, second] = .ok ⟨keys⟩ ∧ ofRecords [first.retired, lost] = .ok ⟨keys⟩ ∧
      List.Forall₂ (fun record key ↦ key.keyId = some record.keyId ∧
        ∀ name ∈ Jwk.privateNames, ¬ key.toJson.HasMember name) [first, second] keys ∧
      List.Forall₂ Record.AgreesPublicly [first, .small, second] [first, .small, lost] ∧
      ofRecords [first, .small, lost] = .error (.ofKey .rsa .emptyText) ∧
      ∃ before record after, [first, .small, second] = before ++ record :: after ∧
        (∀ earlier ∈ before, ∃ key, earlier.publicJwk = .ok key) ∧
        record.publicJwk = .error (.ofKey .rsa .emptyText) := by
  intro first second lost keys
  have hagree : List.Forall₂ Record.AgreesPublicly [first, second] [first.retired, lost] :=
    .cons ⟨rfl, rfl, rfl⟩ (.cons ⟨rfl, rfl, rfl⟩ .nil)
  have hkeys : ofRecords [first, second] = .ok ⟨keys⟩ := by decide +kernel
  obtain ⟨hsame, hset, -⟩ := ofRecords_discloses_nothing hagree
  have hbroken : List.Forall₂ Record.AgreesPublicly [first, .small, second] [first, .small, lost] :=
    .cons ⟨rfl, rfl, rfl⟩ (.cons ⟨rfl, rfl, rfl⟩ (.cons ⟨rfl, rfl, rfl⟩ .nil))
  have herror : ofRecords [first, .small, second] = .error (.ofKey .rsa .emptyText) := by
    decide +kernel
  obtain ⟨hsameError, -, hfirst⟩ := ofRecords_discloses_nothing hbroken
  exact ⟨hagree, hkeys, hsame ▸ hkeys,
    (hset ⟨keys⟩ hkeys).imp fun _ _ ⟨_, hid, _, hnames⟩ ↦ ⟨hid, hnames⟩,
    hbroken, hsameError ▸ herror, hfirst _ herror⟩

end JwkSet

end SigningKeys
