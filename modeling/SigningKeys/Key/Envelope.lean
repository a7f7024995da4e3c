import SigningKeys.Algorithm
import SigningKeys.Der.ObjectId

/-!
# Envelopes

The outer structures in which keys are stored: an identifier of the algorithm, and the key itself
as uninterpreted bytes. Reading an envelope needs no knowledge of the algorithm that it names.
-/

namespace SigningKeys

open Der

/-- An algorithm with an optional parameter of any type. -/
structure AlgorithmId where
  id : ObjectId
  parameter : Option Value
  deriving DecidableEq

namespace AlgorithmId

/-- Keys on the curve P-256. -/
def p256 : AlgorithmId := ⟨ObjectId.ecPublicKey, some ⟨oidTag, ObjectId.p256⟩⟩

/-- RSA keys, which have the null parameter. -/
def rsa : AlgorithmId := ⟨ObjectId.rsaEncryption, some ⟨nullTag, []⟩⟩

/-- The algorithm of keys of the given kind. -/
def ofAlgorithm : Algorithm → AlgorithmId
  | .ec => p256
  | .rsa => rsa

/-- The kind of key that is named, whatever the parameter. -/
def algorithm? (algorithm : AlgorithmId) : Option Algorithm :=
  if algorithm.id = ObjectId.ecPublicKey then some .ec
  else if algorithm.id = ObjectId.rsaEncryption then some .rsa
  else none

/-- The bytes of an algorithm. -/
def bytes (algorithm : AlgorithmId) : List UInt8 :=
  sequence (objectId algorithm.id ++ (algorithm.parameter.map Value.bytes).getD [])

/-- The algorithm of the content of a sequence. -/
def ofContent (content : List UInt8) : Option AlgorithmId := do
  let (id, rest) ← readObjectId content
  if rest = [] then some ⟨id, none⟩
  else
    let parameter ← whole (readValue rest)
    some ⟨id, some parameter⟩

/-- Reads an algorithm. -/
def read (bytes : List UInt8) : Option (AlgorithmId × List UInt8) := do
  let (content, rest) ← readSequence bytes
  let algorithm ← ofContent content
  some (algorithm, rest)

end AlgorithmId

/-- A public key in its envelope. -/
structure PublicEnvelope where
  algorithm : AlgorithmId
  key : Bits
  deriving DecidableEq

namespace PublicEnvelope

/-- What is inside an envelope with the bytes of a key in it. -/
def content (algorithm : AlgorithmId) (key : List UInt8) : List UInt8 :=
  algorithm.bytes ++ bitString key

/-- The bytes of an envelope, unless there is no room for it. -/
def bytes? (algorithm : AlgorithmId) (key : List UInt8) : Option (List UInt8) :=
  sequence? (content algorithm key)

/-- The envelope that the bytes are. -/
def read? (bytes : List UInt8) : Option PublicEnvelope := do
  let content ← contentOfSequence? bytes
  let (algorithm, rest) ← AlgorithmId.read content
  let key ← whole (readBits rest)
  some ⟨algorithm, key⟩

end PublicEnvelope

/-- A private key in its envelope. -/
structure PrivateEnvelope where
  algorithm : AlgorithmId
  key : List UInt8
  deriving DecidableEq

/-- What follows the fields with a number below `number`, whose values are not looked at. Nothing
but fields is passed over, and what comes next must at least have a tag. -/
def skipFields (number : UInt8) (bytes : List UInt8) : Option (List UInt8) :=
  match bytes with
  | [] => some []
  | tag :: rest =>
      if isTag tag then
        if isField tag && tag % 32 < number then
          match _found : readContent rest with
          | some (_, more) => skipFields number more
          | none => none
        else some bytes
      else none
termination_by bytes.length
decreasing_by
  have := length_lt_of_readContent _found
  simp only [List.length_cons]
  omega

/-- Reads the field with the given number, which must have the given tag, if it comes next; fields
with lower numbers are passed over. -/
def readField (number : UInt8) (tag : UInt8) (bytes : List UInt8) :
    Option (Option (List UInt8) × List UInt8) := do
  let bytes ← skipFields number bytes
  match bytes with
  | [] => some (none, [])
  | next :: _ =>
      if isField next && next % 32 == number then
        let (content, rest) ← readElement tag bytes
        some (some content, rest)
      else some (none, bytes)

/-- The bytes are constructed fields with one value in each. -/
def areFields (bytes : List UInt8) : Bool :=
  match bytes with
  | [] => true
  | tag :: rest =>
      match _found : readContent rest with
      | some (content, more) =>
          isTag tag && isConstructedField tag && (whole (readValue content)).isSome &&
            areFields more
      | none => false
termination_by bytes.length
decreasing_by
  have := length_lt_of_readContent _found
  simp only [List.length_cons]
  omega

namespace PrivateEnvelope

/-- What is inside an envelope of the first version with the bytes of a key in it. -/
def content (algorithm : AlgorithmId) (key : List UInt8) : List UInt8 :=
  integer 0 ++ algorithm.bytes ++ octetString key

/-- The bytes of an envelope of the first version, unless there is no room for it. -/
def bytes? (algorithm : AlgorithmId) (key : List UInt8) : Option (List UInt8) :=
  sequence? (content algorithm key)

/-- The envelope that the bytes are. The second version has a public key, which is not looked at,
in field 1; the first version has none. Further fields do not count. -/
def read? (bytes : List UInt8) : Option PrivateEnvelope := do
  let content ← contentOfSequence? bytes
  let (version, rest) ← readNat content
  let (algorithm, rest) ← AlgorithmId.read rest
  let (key, rest) ← readOctets rest
  let (publicKey, rest) ← readField 1 (primitiveField 1) rest
  let withKey ← match publicKey with
    | none => some 0
    | some content => (bitsOfContent content).bind fun bits ↦ bits.whole?.map fun _ ↦ 1
  if version = withKey ∧ areFields rest then some ⟨algorithm, key⟩ else none

end PrivateEnvelope

end SigningKeys
