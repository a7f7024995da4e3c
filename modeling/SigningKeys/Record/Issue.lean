import SigningKeys.Key.Text
import SigningKeys.Record
import SigningKeys.Registry

/-!
# Issuing records

A new record holds both halves of a pair that a registered generator hands out, under an id and with
a time that the caller supplies, and signs from the start.
-/

namespace SigningKeys

/-- What chance and the clock contribute to a new record. -/
structure Draw where
  entropy : Entropy
  keyId : String
  createdAt : Instant

/-- What random bytes and the clock contribute; the key id is made from the first bytes. -/
def Draw.ofBytes (bytes : List UInt8) (now : Instant) : Draw where
  entropy := bytes.drop keyIdBytes
  keyId := keyIdOf bytes
  createdAt := now

/-- How many random bytes a record takes. -/
def Draw.byteCount : Nat := keyIdBytes + Generator.entropyBytes

namespace Record

/-- The active record of a pair, under the stated kind of key. -/
def ofPair (algorithm : Algorithm) (pair : KeyPair) (keyId : String) (createdAt : Instant) :
    Except Error Record := do
  let (publicText, privateText) ← pair.encode
  pure
    { keyId := keyId
      algorithm := algorithm
      publicText := publicText
      privateText := privateText
      createdAt := createdAt
      status := .active }

end Record

namespace Registry

/-- A new record of the given kind of key. -/
def issueFor (registry : Registry) (algorithm : Algorithm) (draw : Draw) : Except Error Record := do
  let generator ← registry.resolve algorithm
  let pair ← generator.generate draw.entropy
  Record.ofPair algorithm pair draw.keyId draw.createdAt

/-- A new record of the default kind of key. -/
def issue (registry : Registry) (draw : Draw) : Except Error Record :=
  registry.issueFor registry.default draw

end Registry

end SigningKeys
