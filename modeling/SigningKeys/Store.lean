import SigningKeys.Record

/-!
# Stores of records

Records in the order in which their ids were first written. Writing a record replaces the first
record that has its id, in place, or appends it.
-/

namespace SigningKeys

/-- The records that are stored. -/
structure Store where
  records : List Record
  deriving DecidableEq

namespace Store

/-- The records after one is written among them. -/
def putAmong (record : Record) : List Record → List Record
  | [] => [record]
  | stored :: rest =>
      if stored.keyId = record.keyId then record :: rest else stored :: putAmong record rest

/-- Writes a record. -/
def put (store : Store) (record : Record) : Store := ⟨putAmong record store.records⟩

/-- Removes the records with an id. -/
def remove (store : Store) (keyId : String) : Store :=
  ⟨store.records.filter (·.keyId ≠ keyId)⟩

/-- Changes the time at which the records with an id were made. -/
def redate (store : Store) (keyId : String) (createdAt : Instant) : Store :=
  ⟨store.records.map fun record ↦
    if record.keyId = keyId then { record with createdAt := createdAt } else record⟩

/-- The records with an id. -/
def find? (store : Store) (keyId : String) : Option Record :=
  store.records.find? (·.keyId = keyId)

end Store

end SigningKeys
