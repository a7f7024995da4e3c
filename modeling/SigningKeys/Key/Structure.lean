import SigningKeys.Key.Basic
import SigningKeys.Key.Envelope

/-!
# The bytes of keys

Keys in their envelopes: what is inside for each kind of key, and the readings that accept exactly
the keys of one kind.
-/

namespace SigningKeys

open Der

namespace P256

/-- The bytes of a secret key inside its envelope: version 1, the scalar, and the point in field
1. -/
def SecretKey.toDer (secret : SecretKey) : List UInt8 :=
  sequence (integer 1 ++ octetString secret.bytes ++
    element (constructedField 1) (bitString secret.point.bytes))

/-- The bytes of the point in field 1 of a secret key: whole bytes of a bit string. -/
def pointBytes? (field : List UInt8) : Option (List UInt8) := do
  let bits ← whole (readBits field)
  bits.whole?

/-- The secret key that the bytes are. Field 0 may name a curve, which is not looked at; a point in
field 1 must be that of the scalar. -/
def SecretKey.ofDer? (bytes : List UInt8) : Option SecretKey := do
  let content ← contentOfSequence? bytes
  let (version, rest) ← readNat content
  if version ≠ 1 then none
  let (scalar, rest) ← readOctets rest
  let (curve, rest) ← readField 0 (constructedField 0) rest
  if curve.any fun field ↦ (whole (readObjectId field)).isNone then none
  let (point, rest) ← readField 1 (constructedField 1) rest
  if rest ≠ [] then none
  let secret ← SecretKey.ofBytes? scalar
  match point with
  | none => some secret
  | some field => do
      let stated ← pointBytes? field
      if stated = secret.point.bytes ∨ stated = secret.point.compressed then some secret else none

end P256

namespace Rsa

/-- The bytes of a public key inside its envelope. -/
def PublicKey.toDer (key : PublicKey) : List UInt8 :=
  sequence (integer key.modulus ++ integer key.exponent)

/-- The public key that the bytes are, with a modulus of bounded size. -/
def PublicKey.ofDer? (bytes : List UInt8) : Option PublicKey := do
  let content ← contentOfSequence? bytes
  let (modulus, rest) ← readNat content
  let exponent ← whole (readNat rest)
  if BigEndian.bitLength modulus ≤ maxModulusBits then PublicKey.ofNumbers? modulus exponent
  else none

/-- The bytes of a private key inside its envelope: version 0 and eight numbers. -/
def PrivateKey.toDer (key : PrivateKey) (remainders : Remainders) : List UInt8 :=
  sequence (integer 0 ++ integer key.publicKey.modulus ++ integer key.publicKey.exponent ++
    integer key.secret ++ integer key.first ++ integer key.second ++ integer remainders.first ++
    integer remainders.second ++ integer remainders.coefficient)

/-- The private key that the bytes are. The last three numbers have to be there and are not looked
at. -/
def PrivateKey.ofDer? (bytes : List UInt8) : Option PrivateKey := do
  let content ← contentOfSequence? bytes
  let (version, rest) ← readNat content
  if version ≠ 0 then none
  let (modulus, rest) ← readNat rest
  let (exponent, rest) ← readNat rest
  let (secret, rest) ← readNat rest
  let (first, rest) ← readNat rest
  let (second, rest) ← readNat rest
  let (_, rest) ← readNat rest
  let (_, rest) ← readNat rest
  let _ ← whole (readNat rest)
  PrivateKey.ofNumbers? modulus exponent secret first second

end Rsa

/-- The bytes of a public key inside its envelope. -/
def PublicKey.innerBytes : PublicKey → List UInt8
  | .ec point => point.bytes
  | .rsa key => key.toDer

/-- The bytes of a public key, or why there are none: its numbers are too long for an envelope. -/
def PublicKey.bytes (key : PublicKey) : Except GeneralFault (List UInt8) :=
  match PublicEnvelope.bytes? (.ofAlgorithm key.algorithm) key.innerBytes with
  | some bytes => .ok bytes
  | none => .error .publicLengthOverflow

/-- The public key of the given kind that an envelope holds. -/
def PublicKey.ofEnvelope? (algorithm : Algorithm) (envelope : PublicEnvelope) :
    Option PublicKey := do
  if envelope.algorithm ≠ .ofAlgorithm algorithm then none
  let key ← envelope.key.whole?
  match algorithm with
  | .ec => (P256.Point.ofBytes? key).map .ec
  | .rsa => (Rsa.PublicKey.ofDer? key).map .rsa

/-- The bytes of a private key inside its envelope; there are none for an RSA key whose primes share
a factor. -/
def PrivateKey.innerBytes? : PrivateKey → Option (List UInt8)
  | .ec secret => some secret.toDer
  | .rsa key => key.remainders?.map key.toDer

/-- The bytes of a private key, or why there are none: the primes of an RSA key share a factor, or
its numbers are too long for an envelope. -/
def PrivateKey.bytes (key : PrivateKey) : Except GeneralFault (List UInt8) :=
  match key.innerBytes? with
  | none => .error .primesShareFactor
  | some inner =>
      match PrivateEnvelope.bytes? (.ofAlgorithm key.algorithm) inner with
      | some bytes => .ok bytes
      | none => .error .privateLengthOverflow

/-- The private key of the given kind that an envelope holds. -/
def PrivateKey.ofEnvelope? (algorithm : Algorithm) (envelope : PrivateEnvelope) :
    Option PrivateKey := do
  if envelope.algorithm ≠ .ofAlgorithm algorithm then none
  match algorithm with
  | .ec => (P256.SecretKey.ofDer? envelope.key).map .ec
  | .rsa => (Rsa.PrivateKey.ofDer? envelope.key).map .rsa

end SigningKeys
