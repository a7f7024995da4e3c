import SigningKeys.Algorithm
import SigningKeys.Json.Printer
import SigningKeys.Json.Reader
import SigningKeys.Text.Quoted
import SigningKeys.Time.Text

/-!
# Key records

One signing key as it is stored: its id, its kind, both halves as texts, when it was made, and
whether it still signs. Records are written as JSON objects and read back from objects, or from
arrays of the six values.
-/

namespace SigningKeys

/-- Whether a key signs. -/
inductive KeyStatus where
  /-- The key signs new tokens. At most one key does. -/
  | active
  /-- The key is kept to verify tokens that it signed before. -/
  | retired
  deriving DecidableEq

namespace KeyStatus

/-- The tag of a status in stored records. -/
def tag : KeyStatus → String
  | .active => "ACTIVE"
  | .retired => "RETIRED"

/-- The capitalised word for a status in descriptions of values. -/
def label : KeyStatus → String
  | .active => "Active"
  | .retired => "Retired"

/-- The status with exactly the given tag. -/
def ofName? (name : String) : Option KeyStatus := [active, retired].find? (·.tag == name)

end KeyStatus

/-- The kind of key with exactly the given tag, as stored records name it. -/
def Algorithm.ofName? (name : String) : Option Algorithm := all.find? (·.tag == name)

/-- A kind of key as a JSON value. -/
def Algorithm.toJson (algorithm : Algorithm) : Json.Value := .text algorithm.tag

/-- The kind of key that a JSON value names. -/
def Algorithm.ofJson? (value : Json.Value) : Option Algorithm := value.name?.bind ofName?

/-- A stored signing key. -/
structure Record where
  keyId : String
  algorithm : Algorithm
  publicText : String
  privateText : String
  createdAt : Instant
  status : KeyStatus
  deriving DecidableEq

namespace Record

/-- The key signs. -/
def isActive (record : Record) : Bool := record.status == .active

/-- The same key, no longer signing. -/
def retired (record : Record) : Record := { record with status := .retired }

/-- The description of a record, which leaves out the key texts. -/
def description (record : Record) : String :=
  "GeneratedKeyRecord \x7b key_id: " ++ Text.quoted record.keyId ++ ", algorithm: " ++
    record.algorithm.label ++ ", created_at: " ++ record.createdAt.text ++ ", status: " ++
    record.status.label ++ ", .. \x7d"

/-- A record as a JSON object. -/
def toJson (record : Record) : Json.Value :=
  .ofMembers
    [("keyId", .text record.keyId),
      ("algorithm", record.algorithm.toJson),
      ("serializedPublicKey", .text record.publicText),
      ("serializedPrivateKey", .text record.privateText),
      ("createdAt", .text record.createdAt.text),
      ("status", .text record.status.tag)]

/-- The record with the given JSON values for its parts. -/
def ofParts? (keyId algorithm publicText privateText createdAt status : Json.Value) :
    Option Record := do
  let keyId ← keyId.text?
  let algorithm ← Algorithm.ofJson? algorithm
  let publicText ← publicText.text?
  let privateText ← privateText.text?
  let createdAt ← createdAt.text?.bind Instant.ofText?
  let status ← status.name?.bind KeyStatus.ofName?
  some ⟨keyId, algorithm, publicText, privateText, createdAt, status⟩

/-- The record that a JSON value stands for: an object that has every part once, whatever else it
has, or an array of the parts. -/
def ofJson? : Json.Value → Option Record
  | .array [keyId, algorithm, publicText, privateText, createdAt, status] =>
      ofParts? keyId algorithm publicText privateText createdAt status
  | .object members => do
      if !Json.Members.areNamed members then none
      let keyId ← Json.Members.the? members "keyId"
      let algorithm ← Json.Members.the? members "algorithm"
      let publicText ← Json.Members.the? members "serializedPublicKey"
      let privateText ← Json.Members.the? members "serializedPrivateKey"
      let createdAt ← Json.Members.the? members "createdAt"
      let status ← Json.Members.the? members "status"
      ofParts? keyId algorithm publicText privateText createdAt status
  | _ => none

/-- The record that a JSON text stands for. -/
def ofText? (text : String) : Option Record := (Json.parse text).bind ofJson?

end Record

end SigningKeys
