import SigningKeys.Error
import SigningKeys.P256.Curve
import SigningKeys.Rsa.Key

/-!
# Keys

Public keys, private keys, and pairs of a private key and the public key that belongs to it. The
public key of a pair is determined by the private one, so pairing two halves is a test
(`KeyPair.ofHalves`).
-/

namespace SigningKeys

/-- A public key of one of the two kinds. -/
inductive PublicKey where
  | ec (point : P256.Point)
  | rsa (key : Rsa.PublicKey)
  deriving DecidableEq

/-- The kind of a public key. -/
def PublicKey.algorithm : PublicKey → Algorithm
  | .ec _ => .ec
  | .rsa _ => .rsa

/-- A private key of one of the two kinds. -/
inductive PrivateKey where
  | ec (secret : P256.SecretKey)
  | rsa (key : Rsa.PrivateKey)
  deriving DecidableEq

namespace PrivateKey

/-- The kind of a private key. -/
def algorithm : PrivateKey → Algorithm
  | .ec _ => .ec
  | .rsa _ => .rsa

/-- The public key that belongs to a private key. -/
def publicKey : PrivateKey → PublicKey
  | .ec secret => .ec secret.point
  | .rsa key => .rsa key.publicKey

/-- The public key is of the same kind. -/
@[simp]
theorem algorithm_publicKey (key : PrivateKey) : key.publicKey.algorithm = key.algorithm := by
  cases key <;> rfl

/-- The description of a private key names its kind and nothing else. -/
def description (key : PrivateKey) : String :=
  "PrivateKeyHandle(" ++ key.algorithm.label ++ ")"

end PrivateKey

/-- A private key and the public key that belongs to it. -/
structure KeyPair where
  publicKey : PublicKey
  privateKey : PrivateKey
  paired : privateKey.publicKey = publicKey
  deriving DecidableEq

namespace KeyPair

/-- The kind of a pair. -/
def algorithm (pair : KeyPair) : Algorithm := pair.publicKey.algorithm

/-- The pair of a private key. -/
def ofPrivate (privateKey : PrivateKey) : KeyPair := ⟨privateKey.publicKey, privateKey, rfl⟩

/-- Pairs two halves after testing that they are of one kind and belong together. -/
def ofHalves (publicKey : PublicKey) (privateKey : PrivateKey) : Except Error KeyPair :=
  if privateKey.algorithm ≠ publicKey.algorithm then
    .error (.typeMismatch publicKey.algorithm.tag privateKey.algorithm.tag)
  else if paired : privateKey.publicKey = publicKey then
    .ok ⟨publicKey, privateKey, paired⟩
  else .error (.ofKey publicKey.algorithm .notAPair)

end KeyPair

end SigningKeys
