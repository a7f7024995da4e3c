import SigningKeys.Jwk.Basic
import SigningKeys.Key.Text

/-!
# Building JSON Web Keys

Keys for signing and for verifying, out of keys or out of key texts. Whenever a private key is
given, its numbers are in the result, so what is published is built from the public half alone
(`Jwk.ofPublic`). A key text is asked which kind of key its envelope names before it is read, so
that a key of the wrong kind is told apart from a broken one.
-/

namespace SigningKeys

/-- The signature algorithm of a kind of key. -/
def Algorithm.jws : Algorithm → JwsAlgorithm
  | .ec => .es256
  | .rsa => .rs256

/-- Tests that a key is of the expected kind; `none` is a kind that is not known here. -/
def expectAlgorithm (expected : Algorithm) : Option Algorithm → Except Error Unit
  | some actual =>
      if actual = expected then .ok () else .error (.typeMismatch expected.tag actual.tag)
  | none => .error (.typeMismatch expected.tag "unknown")

/-- The key material of a point and perhaps its secret key. -/
def JwkKey.ofEc (point : P256.Point) (secret : Option P256.SecretKey) : JwkKey :=
  .ec (BigEndian.padded P256.byteCount point.x) (BigEndian.padded P256.byteCount point.y)
    (secret.map P256.SecretKey.bytes)

/-- The private members of an RSA key; the last three are left out when the primes share a
factor. -/
def RsaMembers.ofKey (key : Rsa.PrivateKey) : RsaMembers where
  d := BigEndian.shortest key.secret
  p := some (BigEndian.shortest key.first)
  q := some (BigEndian.shortest key.second)
  dp := key.remainders?.map fun remainders ↦ BigEndian.shortest remainders.first
  dq := key.remainders?.map fun remainders ↦ BigEndian.shortest remainders.second
  qi := key.remainders?.map fun remainders ↦
    BigEndian.dropSign (BigEndian.signed remainders.coefficient)

/-- The key material of an RSA key, which must have the common exponent. -/
def JwkKey.ofRsa (key : Rsa.PublicKey) (secret : Option Rsa.PrivateKey) : Except Error JwkKey :=
  if key.exponent = Rsa.commonExponent then
    .ok (.rsa (BigEndian.shortest key.modulus) (secret.map RsaMembers.ofKey))
  else .error (.ofKey .rsa .foreignExponent)

/-- The key material of a public key and perhaps a private one of the same kind. -/
def JwkKey.ofKeys : PublicKey → Option PrivateKey → Except Error JwkKey
  | .ec point, none => .ok (.ofEc point none)
  | .ec point, some (.ec secret) => .ok (.ofEc point (some secret))
  | .rsa key, none => JwkKey.ofRsa key none
  | .rsa key, some (.rsa secret) => JwkKey.ofRsa key (some secret)
  | publicKey, some privateKey =>
      .error (.typeMismatch publicKey.algorithm.tag privateKey.algorithm.tag)

namespace Jwk

/-- The key with the given id for signatures of the given kind of key. -/
def signature (keyId : String) (algorithm : Algorithm) (key : JwkKey) : Jwk where
  key := key
  use := some .sig
  operations := []
  keyId := some keyId
  algorithm := some algorithm.jws
  certificates := .none

/-- Builds a key after testing that every half is of the stated kind. -/
def ofKeys (keyId : String) (algorithm : Algorithm) (publicKey : PublicKey)
    (privateKey : Option PrivateKey) : Except Error Jwk := do
  expectAlgorithm algorithm (some publicKey.algorithm)
  match privateKey with
  | some privateKey => expectAlgorithm algorithm (some privateKey.algorithm)
  | none => pure ()
  let key ← JwkKey.ofKeys publicKey privateKey
  pure (signature keyId algorithm key)

/-- The key that signs. -/
def ofPair (keyId : String) (pair : KeyPair) : Except Error Jwk :=
  ofKeys keyId pair.algorithm pair.publicKey (some pair.privateKey)

/-- The key that verifies. -/
def ofPublic (keyId : String) (publicKey : PublicKey) : Except Error Jwk :=
  ofKeys keyId publicKey.algorithm publicKey none

/-- Builds a key out of key texts: for verifying without a private text, else for signing. -/
def ofTexts (keyId publicText : String) (privateText : Option String) (algorithm : Algorithm) :
    Except Error Jwk := do
  let detected ← PublicKey.detect publicText algorithm
  expectAlgorithm algorithm detected
  let publicKey ← PublicKey.decode publicText algorithm
  match privateText with
  | none => ofKeys keyId algorithm publicKey none
  | some privateText => do
      let detected ← PrivateKey.detect privateText algorithm
      expectAlgorithm algorithm detected
      let privateKey ← PrivateKey.decode privateText algorithm
      let pair ← KeyPair.ofHalves publicKey privateKey
      ofPair keyId pair

end Jwk

end SigningKeys
