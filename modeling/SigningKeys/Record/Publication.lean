import SigningKeys.Jwk.Build
import SigningKeys.Record
import SigningKeys.Store

/-!
# Publishing records

The JSON Web Keys of records. A key for verifying is built without the private text of its record,
so a published set depends on the public texts alone.
-/

namespace SigningKeys

namespace Record

/-- The key that signs, which is never to be published. -/
def signingJwk (record : Record) : Except Error Jwk :=
  Jwk.ofTexts record.keyId record.publicText (some record.privateText) record.algorithm

/-- The key that verifies. -/
def publicJwk (record : Record) : Except Error Jwk :=
  Jwk.ofTexts record.keyId record.publicText none record.algorithm

end Record

/-- The set of the keys that verify, one for each record and in the same order. -/
def JwkSet.ofRecords (records : List Record) : Except Error JwkSet := do
  let keys ← records.mapM Record.publicJwk
  pure ⟨keys⟩

/-- The set of the keys that verify, over every record of a store; listing the store may fail. -/
def Store.keySet (store : Store) (listing : Option Error) : Except Error JwkSet :=
  match listing with
  | some error => .error error
  | none => JwkSet.ofRecords store.records

end SigningKeys
