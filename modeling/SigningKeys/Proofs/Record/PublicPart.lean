import SigningKeys.Proofs.Record.Disclosure
import SigningKeys.Proofs.Record.ReadBack

/-!
# The two keys of a record

A record has a key for signing and a key for verifying, which are built in different ways. Both
stand for the same key: the one for verifying is the public part of the one for signing, and there
is none for signing without it. The main statement is `Record.signingJwk_publicPart`.
-/

namespace SigningKeys

open Json

/-- The key material without what only the signer has. -/
def JwkKey.publicPart : JwkKey → JwkKey
  | .ec x y _ => .ec x y none
  | .rsa n _ => .rsa n none
  | .shared k => .shared k

namespace Jwk

/-- The key for verifying what a key signs. -/
def publicPart (jwk : Jwk) : Jwk := { jwk with key := jwk.key.publicPart }

/-- The members that do not belong to private keys. -/
def publicMembers (members : List (String × Value)) : List (String × Value) :=
  members.filter fun member ↦ member.1 ∉ privateNames

/-! ## The members of a public part -/

/-- The public ones of two lists of members are those of one after those of the other. -/
theorem publicMembers_append (first second : List (String × Value)) :
    publicMembers (first ++ second) = publicMembers first ++ publicMembers second :=
  List.filter_append _ _

/-- A member with a public name stays, if it is there. -/
theorem publicMembers_optionalMember {name : String} (h : name ∉ privateNames)
    (value : Option Value) :
    publicMembers (optionalMember name value) = optionalMember name value := by
  cases value with
  | none => rfl
  | some value => exact List.filter_cons_of_pos (decide_eq_true h)

/-- A member with a private name is left out. -/
theorem publicMembers_optionalMember_private {name : String} (h : name ∈ privateNames)
    (value : Option Value) : publicMembers (optionalMember name value) = [] := by
  cases value with
  | none => rfl
  | some value => exact List.filter_cons_of_neg (by simpa using h)

/-- An RSA key has no public member among its private ones. -/
theorem publicMembers_secret (secret : RsaMembers) : publicMembers secret.toMembers = [] := by
  have hd : publicMembers [("d", bytesToJson secret.d)] = [] := rfl
  rw [RsaMembers.toMembers, ← List.singleton_append]
  simp (disch := decide) only [publicMembers_append, hd, publicMembers_optionalMember_private,
    List.append_nil]

/-- The members of public key material are those of the key material that are public. -/
theorem toMembers_publicPart_material (key : JwkKey) :
    key.publicPart.toMembers = publicMembers key.toMembers := by
  cases key with
  | ec x y d => cases d <;> rfl
  | rsa n secret =>
      cases secret with
      | none => rfl
      | some secret =>
          simp only [JwkKey.publicPart, JwkKey.toMembers, Option.map_some, Option.getD_some,
            publicMembers_append, publicMembers_secret]
          rfl
  | shared k => rfl

/-- The members of the public part are those of the key that are public, in the same order. -/
theorem toMembers_publicPart (jwk : Jwk) :
    jwk.publicPart.toMembers = publicMembers jwk.toMembers := by
  simp (disch := decide) only [toMembers, Certificates.toMembers, publicMembers_append,
    publicMembers_optionalMember, ← toMembers_publicPart_material]
  rfl

end Jwk

/-! ## Both keys of a record -/

/-- A pair is built into a key that can sign, whose public part is what the public half is built
into. -/
theorem Jwk.ofPublic_of_ofPair {keyId : String} {pair : KeyPair} {jwk : Jwk}
    (h : ofPair keyId pair = .ok jwk) :
    jwk.isPrivate = true ∧ ofPublic keyId pair.publicKey = .ok jwk.publicPart := by
  rw [ofPair_eq] at h
  rw [ofPublic_eq]
  obtain ⟨publicKey, privateKey, rfl⟩ := pair
  cases privateKey with
  | ec secret =>
      cases h
      exact ⟨rfl, rfl⟩
  | rsa key =>
      simp only [PrivateKey.publicKey, JwkKey.ofKeys, JwkKey.ofRsa] at h ⊢
      split at h
      · next hexponent =>
          cases h
          rw [if_pos hexponent]
          exact ⟨rfl, rfl⟩
      · cases h

namespace Record

variable {record : Record} {jwk : Jwk}

/-- With a key for signing, a record has the public part of it for verifying. -/
theorem publicJwk_of_signingJwk (h : record.signingJwk = .ok jwk) :
    jwk.isPrivate = true ∧ record.publicJwk = .ok jwk.publicPart := by
  obtain ⟨pair, hpair⟩ := Jwk.exists_decode_pair_of_ofTexts h
  have hreads := readsBack_of_decode hpair
  rw [hreads.signingJwk] at h
  rw [hreads.publicJwk]
  exact Jwk.ofPublic_of_ofPair h

/-- If a record has a key for signing, this can sign, and the key for verifying is its public part:
the same but for the private half, with the members that are public, in the same order. If a record
has no key for verifying, it has none for signing. -/
theorem signingJwk_publicPart (record : Record) :
    (∀ jwk, record.signingJwk = .ok jwk → jwk.isPrivate = true ∧
      ∃ published, record.publicJwk = .ok published ∧ published = jwk.publicPart ∧
        published.isPrivate = false ∧ published.toMembers = Jwk.publicMembers jwk.toMembers) ∧
    ((∃ error, record.publicJwk = .error error) → ∃ error, record.signingJwk = .error error) := by
  constructor
  · intro jwk h
    obtain ⟨hprivate, hpublic⟩ := publicJwk_of_signingJwk h
    exact ⟨hprivate, jwk.publicPart, hpublic, rfl, (publicJwk_spec hpublic).2,
      Jwk.toMembers_publicPart jwk⟩
  · rintro ⟨error, herror⟩
    cases hsigning : record.signingJwk with
    | error other => exact ⟨other, rfl⟩
    | ok jwk =>
        rw [(publicJwk_of_signingJwk hsigning).2] at herror
        cases herror

/-- The small key signs with its exponent, primes and remainders, and is published with its modulus
alone; without its public text it neither signs nor is published. -/
theorem signingJwk_publicPart_small :
    let record : Record :=
      { Record.small with publicText := smallPublicText, privateText := smallPrivateText }
    let secret : RsaMembers :=
      ⟨[117, 1], some [1, 1], some [1, 7], some [1], some [85], some [43]⟩
    let jwk := Jwk.signature "small" .rsa (.rsa [1, 8, 7] (some secret))
    record.signingJwk = .ok jwk ∧ jwk.isPrivate = true ∧
      record.publicJwk = .ok (.signature "small" .rsa (.rsa [1, 8, 7] none)) ∧
      Jwk.publicMembers jwk.toMembers =
        (Jwk.signature "small" .rsa (.rsa [1, 8, 7] none)).toMembers ∧
      ∃ error, { record with publicText := "" }.signingJwk = .error error := by
  intro record secret jwk
  have hsigning : record.signingJwk = .ok jwk := by decide +kernel
  have hlost : { record with publicText := "" }.publicJwk = .error (.ofKey .rsa .emptyText) := by
    decide +kernel
  obtain ⟨hprivate, published, hpublic, rfl, -, hmembers⟩ :=
    (signingJwk_publicPart record).1 jwk hsigning
  exact ⟨hsigning, hprivate, hpublic, hmembers.symm,
    (signingJwk_publicPart { record with publicText := "" }).2 ⟨_, hlost⟩⟩

end Record

end SigningKeys
