import SigningKeys.Key.Structure
import SigningKeys.Pem
import SigningKeys.Text.Blank

/-!
# Keys as texts

Keys are stored as base64 of their bytes and read back from that or from armoured text, with blanks
around it. Writing always gives plain base64. The kind of key that an envelope names can be read
without reading the key.
-/

namespace SigningKeys

open Text

/-- The bytes that a key text stands for. -/
def keyBytes (text : String) : Except KeyFault (List UInt8) :=
  let text := trim text.toList
  if text = [] then .error .emptyText
  else if (dropLead? Pem.mark text).isSome then
    match Pem.decode text with
    | some bytes => if Der.isSequence bytes then .ok bytes else .error (.malformed .armour)
    | none => .error (.malformed .armour)
  else
    match Base64.decode text with
    | some bytes => .ok bytes
    | none => .error (.malformed .text)

/-- Reads the bytes of a key text by means of the given structure. -/
def readKeyText {α : Type} (text : String) (algorithm : Algorithm) (fault : KeyPart)
    (read : List UInt8 → Option α) : Except Error α :=
  match keyBytes text with
  | .error fault => .error (.ofKey algorithm fault)
  | .ok bytes =>
      match read bytes with
      | some result => .ok result
      | none => .error (.ofKey algorithm (.malformed fault))

/-- The text of the bytes of a key, if it has any. -/
def writeKeyText : Except GeneralFault (List UInt8) → Except Error String
  | .ok bytes => .ok (.ofList (Base64.encode bytes))
  | .error fault => .error (.general fault)

namespace PublicKey

/-- The text of a public key, unless it is an RSA key whose numbers are too long. -/
def encode (key : PublicKey) : Except Error String := writeKeyText key.bytes

/-- The public key of the given kind that a text stands for. -/
def decode (text : String) (algorithm : Algorithm) : Except Error PublicKey :=
  readKeyText text algorithm .numbers fun bytes ↦ do
    let envelope ← PublicEnvelope.read? bytes
    ofEnvelope? algorithm envelope

/-- The kind of key that the envelope of a public key names; `none` for any other algorithm. The
declared kind appears in errors only. -/
def detect (text : String) (declared : Algorithm) : Except Error (Option Algorithm) :=
  readKeyText text declared .layout fun bytes ↦ do
    let envelope ← PublicEnvelope.read? bytes
    some envelope.algorithm.algorithm?

end PublicKey

namespace PrivateKey

/-- The text of a private key, unless it is an RSA key whose primes share a factor or whose numbers
are too long. -/
def encode (key : PrivateKey) : Except Error String := writeKeyText key.bytes

/-- The private key of the given kind that a text stands for. -/
def decode (text : String) (algorithm : Algorithm) : Except Error PrivateKey :=
  readKeyText text algorithm .numbers fun bytes ↦ do
    let envelope ← PrivateEnvelope.read? bytes
    ofEnvelope? algorithm envelope

/-- The kind of key that the envelope of a private key names; `none` for any other algorithm. -/
def detect (text : String) (declared : Algorithm) : Except Error (Option Algorithm) :=
  readKeyText text declared .layout fun bytes ↦ do
    let envelope ← PrivateEnvelope.read? bytes
    some envelope.algorithm.algorithm?

end PrivateKey

/-- The texts of both halves of a pair, the public one first. -/
def KeyPair.encode (pair : KeyPair) : Except Error (String × String) := do
  let publicText ← pair.publicKey.encode
  let privateText ← pair.privateKey.encode
  pure (publicText, privateText)

/-- The pair that two stored halves make up. -/
def KeyPair.decode (publicText privateText : String) (algorithm : Algorithm) :
    Except Error KeyPair := do
  let publicKey ← PublicKey.decode publicText algorithm
  let privateKey ← PrivateKey.decode privateText algorithm
  KeyPair.ofHalves publicKey privateKey

end SigningKeys
