import SigningKeys.Base64
import SigningKeys.Json.Printer
import SigningKeys.Json.Reader
import SigningKeys.Jwk.Basic

/-!
# JSON Web Keys as JSON

Keys and key sets as JSON objects, and back. Bytes are base64 texts in the alphabet for URLs. A
reader takes the members that it knows, each at most once, and drops the others; the private members
of an RSA key are dropped as a whole unless all of them can be read.
-/

namespace SigningKeys

open Json

/-- Bytes as a JSON text. -/
def bytesToJson (bytes : List UInt8) : Value := .text (.ofList (Base64.encodeUrl bytes))

/-- The bytes that a JSON text stands for. -/
def bytesOfJson? (value : Value) : Option (List UInt8) :=
  value.text?.bind fun text ↦ Base64.decodeUrl text.toList

/-- A member that is left out when it has no value. -/
def optionalMember (name : String) : Option Value → List (String × Value)
  | some value => [(name, value)]
  | none => []

/-- The private members of an RSA key. -/
def RsaMembers.toMembers (secret : RsaMembers) : List (String × Value) :=
  ("d", bytesToJson secret.d) ::
    (optionalMember "p" (secret.p.map bytesToJson) ++
      optionalMember "q" (secret.q.map bytesToJson) ++
      optionalMember "dp" (secret.dp.map bytesToJson) ++
      optionalMember "dq" (secret.dq.map bytesToJson) ++
      optionalMember "qi" (secret.qi.map bytesToJson))

/-- The members of the key material. -/
def JwkKey.toMembers : JwkKey → List (String × Value)
  | .ec x y d =>
      [("kty", .text "EC"), ("crv", .text "P-256")] ++ optionalMember "d" (d.map bytesToJson) ++
        [("x", bytesToJson x), ("y", bytesToJson y)]
  | .rsa n secret =>
      [("kty", .text "RSA"), ("e", .text "AQAB"), ("n", bytesToJson n)] ++
        (secret.map RsaMembers.toMembers).getD []
  | .shared k => [("kty", .text "oct"), ("k", bytesToJson k)]

/-- The members about certificates. -/
def Certificates.toMembers (certificates : Certificates) : List (String × Value) :=
  optionalMember "x5u" (certificates.url.map .text) ++
    optionalMember "x5c" (certificates.chain.map fun chain ↦ .array (chain.map .text)) ++
    optionalMember "x5t" (certificates.thumbprint.map .text) ++
    optionalMember "x5t#S256" (certificates.thumbprint256.map .text)

namespace Jwk

/-- The members of a key, in the order in which they are written. -/
def toMembers (jwk : Jwk) : List (String × Value) :=
  jwk.key.toMembers ++
    optionalMember "use" (jwk.use.map fun use ↦ .text use.name) ++
    optionalMember "key_ops"
      (if jwk.operations = [] then none
        else some (.array (jwk.operations.map fun operation ↦ .text operation.name))) ++
    optionalMember "kid" (jwk.keyId.map .text) ++
    optionalMember "alg" (jwk.algorithm.map fun algorithm ↦ .text algorithm.name) ++
    jwk.certificates.toMembers

/-- A key as a JSON object. -/
def toJson (jwk : Jwk) : Value := .ofMembers jwk.toMembers

end Jwk

/-- A key set as a JSON object. -/
def JwkSet.toJson (set : JwkSet) : Value :=
  .ofMembers [("keys", .array (set.keys.map Jwk.toJson))]

/-! ## Reading -/

/-- The value of an optional member, which may also be null. -/
def readOptional {α : Type} (members : Members) (name : String) (read : Value → Option α) :
    Option (Option α) := do
  match ← members.unique? name with
  | none => some none
  | some .null => some none
  | some value => (read value).map some

/-- The value of a member that has to be there. -/
def readRequired {α : Type} (members : Members) (name : String) (read : Value → Option α) :
    Option α :=
  (members.the? name).bind read

/-- The bytes of a value, which must be as many as given. -/
def bytesOfLength? (length : Nat) (value : Value) : Option (List UInt8) := do
  let bytes ← bytesOfJson? value
  if bytes.length = length then some bytes else none

/-- The position, among the given names, of the name or of the number that a value is. -/
def positionOf? (names : List String) : Value → Option Nat
  | .string (some name) => names.findIdx? (· == name)
  | .number ⟨false, position, 0, none⟩ => if position < names.length then some position else none
  | _ => none

/-- The key types that `kty` may name. -/
def keyTypes : List String := ["EC", "RSA", "oct"]

/-- The curves that `crv` may name. -/
def curves : List String := ["P-256"]

/-- The common exponent in base64, which need not be filled. -/
def isCommonExponent (value : Value) : Bool :=
  value.text? == some "AQAB" || value.text? == some "AQABAA=="

/-- The length of coordinates and scalars. -/
def coordinateLength : Nat := 32

/-- The private members of an RSA key, if all that are there can be read. -/
def RsaMembers.ofMembers? (members : Members) : Option RsaMembers := do
  let d ← readRequired members "d" bytesOfJson?
  let p ← readOptional members "p" bytesOfJson?
  let q ← readOptional members "q" bytesOfJson?
  let dp ← readOptional members "dp" bytesOfJson?
  let dq ← readOptional members "dq" bytesOfJson?
  let qi ← readOptional members "qi" bytesOfJson?
  some ⟨d, p, q, dp, dq, qi⟩

/-- The key material of an object. -/
def JwkKey.ofMembers? (members : Members) : Option JwkKey := do
  let keyType ← readRequired members "kty" (positionOf? keyTypes)
  if keyType = 0 then
    let _ ← readRequired members "crv" (positionOf? curves)
    let d ← readOptional members "d" (bytesOfLength? coordinateLength)
    let x ← readRequired members "x" (bytesOfLength? coordinateLength)
    let y ← readRequired members "y" (bytesOfLength? coordinateLength)
    some (.ec x y d)
  else if keyType = 1 then
    let exponent ← members.the? "e"
    let n ← readRequired members "n" bytesOfJson?
    if isCommonExponent exponent then some (.rsa n (RsaMembers.ofMembers? members)) else none
  else
    let k ← readRequired members "k" bytesOfJson?
    some (.shared k)

/-- The texts of an array. -/
def textsOfJson? : Value → Option (List String)
  | .array items => items.mapM Value.text?
  | _ => none

/-- The operations that an array names, each once and in the order in which they are written. -/
def operationsOfJson? (value : Value) : Option (List KeyOperation) := do
  let names ← textsOfJson? value
  if names.all fun name ↦ KeyOperation.all.any (·.name == name) then
    some (KeyOperation.all.filter fun operation ↦ names.contains operation.name)
  else none

/-- What an object says about certificates. -/
def Certificates.ofMembers? (members : Members) : Option Certificates := do
  let url ← readOptional members "x5u" Value.text?
  let chain ← readOptional members "x5c" textsOfJson?
  let thumbprint ← readOptional members "x5t" Value.text?
  let thumbprint256 ← readOptional members "x5t#S256" Value.text?
  some ⟨url, chain, thumbprint, thumbprint256⟩

/-- The use that a value names. -/
def KeyUse.ofJson? (value : Value) : Option KeyUse :=
  value.name?.bind fun name ↦ KeyUse.all.find? (·.name == name)

/-- The algorithm that a value names. -/
def JwsAlgorithm.ofJson? (value : Value) : Option JwsAlgorithm :=
  value.name?.bind fun name ↦ JwsAlgorithm.all.find? (·.name == name)

/-- The operations of an object; none need be named. -/
def readOperations (members : Members) : Option (List KeyOperation) := do
  match ← members.unique? "key_ops" with
  | none => some []
  | some value => operationsOfJson? value

namespace Jwk

/-- The key that a JSON object stands for. -/
def ofJson? : Value → Option Jwk
  | .object members => do
      if !Value.membersArePlain members then none
      let use ← readOptional members "use" KeyUse.ofJson?
      let operations ← readOperations members
      let keyId ← readOptional members "kid" Value.text?
      let algorithm ← readOptional members "alg" JwsAlgorithm.ofJson?
      let key ← JwkKey.ofMembers? members
      let certificates ← Certificates.ofMembers? members
      some ⟨key, use, operations, keyId, algorithm, certificates⟩
  | _ => none

end Jwk

namespace JwkSet

/-- The set of the given keys, which must not be nested too deeply in a document. -/
def ofKeys? (value : Value) : Option JwkSet :=
  match value with
  | .array items =>
      if value.depth < Value.maxDepth then (items.mapM Jwk.ofJson?).map JwkSet.mk else none
  | _ => none

/-- The key set that a JSON value stands for: an object with the keys, whatever else it has, or an
array of the keys alone. -/
def ofJson? : Value → Option JwkSet
  | .array [keys] => ofKeys? keys
  | .object members => do
      if !Members.areNamed members then none
      let keys ← Members.the? members "keys"
      ofKeys? keys
  | _ => none

/-- The key set that a JSON text stands for. -/
def ofText? (text : String) : Option JwkSet := (parse text).bind ofJson?

end JwkSet

end SigningKeys
