/-!
# JSON Web Keys

Keys as they are published to those who verify tokens, or handed to those who sign. Numbers and
coordinates are big-endian bytes.
-/

namespace SigningKeys

/-- The private members of an RSA key. Only the exponent has to be there. -/
structure RsaMembers where
  d : List UInt8
  p : Option (List UInt8)
  q : Option (List UInt8)
  dp : Option (List UInt8)
  dq : Option (List UInt8)
  qi : Option (List UInt8)
  deriving DecidableEq

/-- The key material. -/
inductive JwkKey where
  /-- A point of the curve P-256 and perhaps its scalar. -/
  | ec (x y : List UInt8) (d : Option (List UInt8))
  /-- A modulus, with the exponent 65537, and perhaps the private members. -/
  | rsa (n : List UInt8) (secret : Option RsaMembers)
  /-- A key that both sides share. -/
  | shared (k : List UInt8)
  deriving DecidableEq

/-- The key material can sign. -/
def JwkKey.isPrivate : JwkKey → Bool
  | .ec _ _ d => d.isSome
  | .rsa _ secret => secret.isSome
  | .shared _ => true

/-- What a key is for. -/
inductive KeyUse where
  | sig
  | enc
  deriving DecidableEq

/-- The word for a use. -/
def KeyUse.name : KeyUse → String
  | .sig => "sig"
  | .enc => "enc"

/-- Every use. -/
def KeyUse.all : List KeyUse := [.sig, .enc]

/-- What may be done with a key. -/
inductive KeyOperation where
  | sign
  | verify
  | encrypt
  | decrypt
  | wrapKey
  | unwrapKey
  | deriveKey
  | deriveBits
  deriving DecidableEq

/-- The word for an operation. -/
def KeyOperation.name : KeyOperation → String
  | .sign => "sign"
  | .verify => "verify"
  | .encrypt => "encrypt"
  | .decrypt => "decrypt"
  | .wrapKey => "wrapKey"
  | .unwrapKey => "unwrapKey"
  | .deriveKey => "deriveKey"
  | .deriveBits => "deriveBits"

/-- Every operation, in the order in which they are written. -/
def KeyOperation.all : List KeyOperation :=
  [.sign, .verify, .encrypt, .decrypt, .wrapKey, .unwrapKey, .deriveKey, .deriveBits]

/-- The algorithm that a key is to be used with. -/
inductive JwsAlgorithm where
  | hs256
  | rs256
  | es256
  deriving DecidableEq

/-- The name of an algorithm. -/
def JwsAlgorithm.name : JwsAlgorithm → String
  | .hs256 => "HS256"
  | .rs256 => "RS256"
  | .es256 => "ES256"

/-- Every algorithm. -/
def JwsAlgorithm.all : List JwsAlgorithm := [.hs256, .rs256, .es256]

/-- What a key says about its certificates. -/
structure Certificates where
  url : Option String
  chain : Option (List String)
  thumbprint : Option String
  thumbprint256 : Option String
  deriving DecidableEq

/-- Nothing is said about certificates. -/
def Certificates.none : Certificates := ⟨.none, .none, .none, .none⟩

/-- A JSON Web Key. -/
structure Jwk where
  key : JwkKey
  use : Option KeyUse
  /-- The operations, each once and in the order of `KeyOperation.all`. -/
  operations : List KeyOperation
  keyId : Option String
  algorithm : Option JwsAlgorithm
  certificates : Certificates
  deriving DecidableEq

/-- The key can sign. -/
def Jwk.isPrivate (jwk : Jwk) : Bool := jwk.key.isPrivate

/-- A list of keys. -/
structure JwkSet where
  keys : List Jwk
  deriving DecidableEq

end SigningKeys
