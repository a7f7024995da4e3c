import SigningKeys.Number.BigEndian

/-!
# Tagged values

The distinguished encoding of tagged values: a tag byte, the length of the content in the fewest
bytes, and the content. Reading takes a value from the front of a byte list and gives back what
follows it; `element` writes what `readElement` reads.
-/

namespace SigningKeys.Der

/-! ## Tags -/

/-- The tag of an integer. -/
def integerTag : UInt8 := 0x02

/-- The tag of a bit string. -/
def bitStringTag : UInt8 := 0x03

/-- The tag of an octet string. -/
def octetStringTag : UInt8 := 0x04

/-- The tag of the null value. -/
def nullTag : UInt8 := 0x05

/-- The tag of an object identifier. -/
def oidTag : UInt8 := 0x06

/-- The tag of a sequence. -/
def sequenceTag : UInt8 := 0x30

/-- The tag of a primitive field numbered by its context. -/
def primitiveField (number : UInt8) : UInt8 := 0x80 + number

/-- The tag of a constructed field numbered by its context. -/
def constructedField (number : UInt8) : UInt8 := 0xA0 + number

/-- The tag is that of a field numbered by its context. -/
def isField (tag : UInt8) : Bool := 0x80 ≤ tag && tag < 0xC0

/-- The tag is that of a constructed field numbered by its context. -/
def isConstructedField (tag : UInt8) : Bool := 0xA0 ≤ tag && tag < 0xC0

/-- The tags of the universal types that a value may have. -/
def universalTags : List UInt8 :=
  [0x01, 0x02, 0x03, 0x04, 0x05, 0x06, 0x09, 0x0A, 0x0C, 0x12, 0x13, 0x14, 0x15, 0x16, 0x17, 0x18,
    0x1A, 0x1E, 0x30, 0x31]

/-- The byte is the tag of a value: of a universal type, or of one of the numbered classes with a
number that fits the byte. -/
def isTag (byte : UInt8) : Bool :=
  universalTags.contains byte || (0x40 ≤ byte && byte % 32 != 31)

/-! ## Values -/

/-- The largest length that is read or written, be it that of a content or of a whole value. -/
def maxLength : Nat := 0xfffffff

/-- The most bytes that a length may take after the byte that counts them. -/
def maxLengthBytes : Nat := 4

/-- The bytes that state a length: the length itself below 128, else how many bytes it takes and
these bytes. -/
def lengthBytes (length : Nat) : List UInt8 :=
  if length < 128 then [UInt8.ofNat length]
  else
    let bytes := BigEndian.shortest length
    UInt8.ofNat (128 + bytes.length) :: bytes

/-- The bytes of a tagged value. -/
def element (tag : UInt8) (content : List UInt8) : List UInt8 :=
  tag :: (lengthBytes content.length ++ content)

/-- There is room for the value with this content: for its tag, its length and the content. -/
def Fits (content : List UInt8) : Prop :=
  1 + (lengthBytes content.length).length + content.length ≤ maxLength

/-- Whether there is room is decided by comparing lengths. -/
instance (content : List UInt8) : Decidable (Fits content) :=
  inferInstanceAs (Decidable (_ ≤ _))

/-- Reads a length, which must be stated in the fewest bytes. -/
def readLength : List UInt8 → Option (Nat × List UInt8)
  | [] => none
  | first :: rest =>
      if first < 128 then some (first.toNat, rest)
      else
        let count := first.toNat - 128
        let bytes := rest.take count
        let length := BigEndian.toNat bytes
        if count ≤ maxLengthBytes ∧ bytes.length = count ∧ 128 ≤ length ∧ length ≤ maxLength ∧
            bytes = BigEndian.shortest length then
          some (length, rest.drop count)
        else none

/-- Reads a length and as much content. -/
def readContent (bytes : List UInt8) : Option (List UInt8 × List UInt8) := do
  let (length, rest) ← readLength bytes
  if length ≤ rest.length then some (rest.take length, rest.drop length) else none

/-- A length takes at least one byte. -/
theorem length_lt_of_readLength {bytes rest : List UInt8} {length : Nat}
    (h : readLength bytes = some (length, rest)) : rest.length < bytes.length := by
  cases bytes with
  | nil => simp [readLength] at h
  | cons first more =>
      simp only [readLength] at h
      split at h
      · simp only [Option.some.injEq, Prod.mk.injEq] at h
        simp [← h.2]
      · split at h
        · simp only [Option.some.injEq, Prod.mk.injEq] at h
          simp only [← h.2, List.length_drop, List.length_cons]
          omega
        · simp at h

/-- A length and its content take at least one byte. -/
theorem length_lt_of_readContent {bytes content rest : List UInt8}
    (h : readContent bytes = some (content, rest)) : rest.length < bytes.length := by
  simp only [readContent, bind, Option.bind] at h
  split at h
  · simp at h
  · rename_i found hfound
    obtain ⟨length, more⟩ := found
    have hlt := length_lt_of_readLength hfound
    dsimp only at h
    split at h
    · simp only [Option.some.injEq, Prod.mk.injEq] at h
      simp only [← h.2, List.length_drop]
      omega
    · simp at h

/-- Reads the content of a value with the given tag. -/
def readElement (tag : UInt8) : List UInt8 → Option (List UInt8 × List UInt8)
  | [] => none
  | first :: rest => if first = tag then readContent rest else none

/-- A value of any type: its tag and its content. -/
structure Value where
  tag : UInt8
  content : List UInt8
  deriving DecidableEq

/-- The bytes of a value. -/
def Value.bytes (value : Value) : List UInt8 := element value.tag value.content

/-- Reads a value of any type. -/
def readValue : List UInt8 → Option (Value × List UInt8)
  | [] => none
  | tag :: rest => do
      if isTag tag then
        let (content, rest) ← readContent rest
        some (⟨tag, content⟩, rest)
      else none

/-- The result of a reading that left nothing over. -/
def whole {α : Type} : Option (α × List UInt8) → Option α
  | some (result, []) => some result
  | _ => none

/-! ## Integers, bit strings, octet strings, sequences -/

/-- The natural number of an integer's content, which must be its shortest two's complement form. -/
def natOfContent (content : List UInt8) : Option Nat :=
  let n := BigEndian.toNat content
  if content = BigEndian.signed n then some n else none

/-- The bytes of a natural number. -/
def integer (n : Nat) : List UInt8 := element integerTag (BigEndian.signed n)

/-- Reads a natural number. -/
def readNat (bytes : List UInt8) : Option (Nat × List UInt8) := do
  let (content, rest) ← readElement integerTag bytes
  let n ← natOfContent content
  some (n, rest)

/-- A bit string: bytes, and how many bits of the last one do not count. -/
structure Bits where
  unused : UInt8
  bytes : List UInt8
  deriving DecidableEq

/-- The bit string of a content. -/
def bitsOfContent : List UInt8 → Option Bits
  | [] => none
  | unused :: bytes =>
      if unused ≤ 7 ∧ (unused = 0 ∨ bytes ≠ []) then some ⟨unused, bytes⟩ else none

/-- The bytes of a bit string that is made of whole bytes. -/
def Bits.whole? (bits : Bits) : Option (List UInt8) :=
  if bits.unused = 0 then some bits.bytes else none

/-- The bytes of a bit string made of whole bytes. -/
def bitString (bytes : List UInt8) : List UInt8 := element bitStringTag (0 :: bytes)

/-- Reads a bit string. -/
def readBits (bytes : List UInt8) : Option (Bits × List UInt8) := do
  let (content, rest) ← readElement bitStringTag bytes
  let bits ← bitsOfContent content
  some (bits, rest)

/-- The bytes of an octet string. -/
def octetString (bytes : List UInt8) : List UInt8 := element octetStringTag bytes

/-- Reads an octet string. -/
def readOctets (bytes : List UInt8) : Option (List UInt8 × List UInt8) :=
  readElement octetStringTag bytes

/-- The bytes of a sequence of values. -/
def sequence (values : List UInt8) : List UInt8 := element sequenceTag values

/-- Reads a sequence. -/
def readSequence (bytes : List UInt8) : Option (List UInt8 × List UInt8) :=
  readElement sequenceTag bytes

/-- The bytes of a sequence, unless there is no room for it. -/
def sequence? (values : List UInt8) : Option (List UInt8) :=
  if Fits values then some (sequence values) else none

/-- The content of the one sequence that the bytes are. More bytes than the largest length are not
looked at. -/
def contentOfSequence? (bytes : List UInt8) : Option (List UInt8) :=
  if bytes.length ≤ maxLength then whole (readSequence bytes) else none

/-- The bytes are exactly one sequence. -/
def isSequence (bytes : List UInt8) : Bool := (contentOfSequence? bytes).isSome

end SigningKeys.Der
