import SigningKeys.Der.Basic

/-!
# Object identifiers

Object identifiers as the bytes of their content, and the identifiers that keys name.
-/

namespace SigningKeys.Der

/-- The content of an object identifier. -/
abbrev ObjectId := List UInt8

namespace ObjectId

/-- Keys on an elliptic curve, 1.2.840.10045.2.1. -/
def ecPublicKey : ObjectId := [0x2A, 0x86, 0x48, 0xCE, 0x3D, 0x02, 0x01]

/-- The curve P-256, 1.2.840.10045.3.1.7. -/
def p256 : ObjectId := [0x2A, 0x86, 0x48, 0xCE, 0x3D, 0x03, 0x01, 0x07]

/-- RSA keys, 1.2.840.113549.1.1.1. -/
def rsaEncryption : ObjectId := [0x2A, 0x86, 0x48, 0x86, 0xF7, 0x0D, 0x01, 0x01, 0x01]

/-- The bytes are complete arcs, of which `before` bytes of the present one are already read. A byte
of 128 or more is followed by another of the same arc, and a fifth byte has no more than four
bits. -/
def areArcs (before : Nat) : List UInt8 → Bool
  | [] => before == 0
  | byte :: rest =>
      if 4 ≤ before && 16 ≤ byte then false
      else if byte < 128 then areArcs 0 rest
      else areArcs (before + 1) rest

/-- The content of an object identifier: 3 to 39 bytes, the first of which holds two arcs of which
the first is at most 2. -/
def isWellFormed : List UInt8 → Bool
  | [] => false
  | first :: rest => first < 120 && 2 ≤ rest.length && rest.length ≤ 38 && areArcs 0 rest

end ObjectId

/-- The bytes of an object identifier. -/
def objectId (id : ObjectId) : List UInt8 := element oidTag id

/-- Reads an object identifier. -/
def readObjectId (bytes : List UInt8) : Option (ObjectId × List UInt8) := do
  let (content, rest) ← readElement oidTag bytes
  if ObjectId.isWellFormed content then some (content, rest) else none

end SigningKeys.Der
