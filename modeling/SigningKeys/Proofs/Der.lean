import SigningKeys.Der.Basic
import SigningKeys.Proofs.Number.BigEndian

/-!
# Reading what was written

Every kind of tagged value is read back from its bytes, whatever follows them. `readElement_append`
is the law that the others specialise; it needs a content that there is room for (`Fits`). What
follows a value does not count when the value is read, so no value is the beginning of another
(`eq_nil_of_isSequence_append`).
-/

namespace SigningKeys.Der

/-! ## Lengths -/

/-- The digits of a permitted length are not too many. -/
theorem length_shortest_le_maxLengthBytes {length : Nat} (h : length ≤ maxLength) :
    (BigEndian.shortest length).length ≤ maxLengthBytes :=
  BigEndian.length_shortest_le (by decide) (Nat.lt_of_le_of_lt h (by decide))

/-- A stated length is read, whatever follows it. -/
theorem readLength_append {length : Nat} (h : length ≤ maxLength) (rest : List UInt8) :
    readLength (lengthBytes length ++ rest) = some (length, rest) := by
  by_cases hshort : length < 128
  · have hbyte : (UInt8.ofNat length).toNat = length := by
      rw [UInt8.toNat_ofNat', Nat.mod_eq_of_lt (by omega)]
    have hlt : UInt8.ofNat length < 128 := by
      rw [UInt8.lt_iff_toNat_lt, hbyte]
      exact hshort
    rw [lengthBytes, if_pos hshort, List.singleton_append, readLength, if_pos hlt, hbyte]
  · -- The first byte is 128 and the number of digits, which are at most four.
    have hcount := length_shortest_le_maxLengthBytes h
    have hsmall : (BigEndian.shortest length).length ≤ 4 := hcount
    have hbyte : (UInt8.ofNat (128 + (BigEndian.shortest length).length)).toNat =
        128 + (BigEndian.shortest length).length := by
      rw [UInt8.toNat_ofNat', Nat.mod_eq_of_lt (by omega)]
    have hlong : ¬ UInt8.ofNat (128 + (BigEndian.shortest length).length) < 128 := by
      rw [UInt8.lt_iff_toNat_lt, hbyte]
      show ¬ 128 + (BigEndian.shortest length).length < 128
      omega
    rw [lengthBytes, if_neg hshort, List.cons_append, readLength, if_neg hlong]
    simp only [hbyte, Nat.add_sub_cancel_left, List.take_left, List.drop_left,
      BigEndian.toNat_shortest]
    exact if_pos ⟨hcount, trivial, by omega, h, trivial⟩

/-- A length takes at least one byte. -/
theorem length_lengthBytes_pos (length : Nat) : 0 < (lengthBytes length).length := by
  rw [lengthBytes]
  split
  · exact Nat.one_pos
  · exact Nat.succ_pos _

/-- A permitted length takes at most one byte more than its digits. -/
theorem length_lengthBytes_le {length : Nat} (h : length ≤ maxLength) :
    (lengthBytes length).length ≤ 1 + maxLengthBytes := by
  rw [lengthBytes]
  split
  · exact Nat.le_add_right 1 maxLengthBytes
  · have hcount := length_shortest_le_maxLengthBytes h
    rw [List.length_cons]
    omega

/-- A length that is not larger is stated in no more bytes. -/
theorem length_lengthBytes_mono {m n : Nat} (h : m ≤ n) :
    (lengthBytes m).length ≤ (lengthBytes n).length := by
  by_cases hshort : m < 128
  · rw [lengthBytes, if_pos hshort]
    exact length_lengthBytes_pos n
  · have hlong : ¬ n < 128 := by omega
    rw [lengthBytes, if_neg hshort, lengthBytes, if_neg hlong]
    exact Nat.succ_le_succ (BigEndian.length_shortest_mono h)

/-! ## Room for values -/

variable {content : List UInt8}

/-- There is room for a value when it is not too long as a whole. -/
theorem fits_iff {tag : UInt8} : Fits content ↔ (element tag content).length ≤ maxLength := by
  rw [element, List.length_cons, List.length_append, Fits]
  omega

/-- The length of a content that there is room for is permitted. -/
theorem Fits.length_le (h : Fits content) : content.length ≤ maxLength :=
  Nat.le_of_add_left_le h

/-- There is room for a content that is shorter than permitted by the most bytes of a tag and a
length. -/
theorem fits_of_length_le (h : content.length + 6 ≤ maxLength) : Fits content := by
  have hlength := length_lengthBytes_le (Nat.le_of_add_right_le h)
  have hmax : maxLengthBytes = 4 := rfl
  rw [Fits]
  omega

/-- There is room for a shorter content as well. -/
theorem Fits.of_length_le {longer : List UInt8} (h : Fits longer)
    (hle : content.length ≤ longer.length) : Fits content := by
  have hmono := length_lengthBytes_mono hle
  rw [Fits] at h ⊢
  omega

/-- There is room for a content if there is for the whole value. -/
theorem Fits.of_element {tag : UInt8} (h : Fits (element tag content)) : Fits content :=
  fits_iff.2 h.length_le

/-- There is room for the first part if there is for both parts. -/
theorem Fits.left {first second : List UInt8} (h : Fits (first ++ second)) : Fits first :=
  h.of_length_le (by rw [List.length_append]; omega)

/-- There is room for the second part if there is for both parts. -/
theorem Fits.right {first second : List UInt8} (h : Fits (first ++ second)) : Fits second :=
  h.of_length_le (by rw [List.length_append]; omega)

/-! ## Values -/

/-- A stated length and the content are read, whatever follows them. -/
theorem readContent_append (h : Fits content) (rest : List UInt8) :
    readContent (lengthBytes content.length ++ content ++ rest) = some (content, rest) := by
  rw [List.append_assoc, readContent, readLength_append h.length_le]
  simp

/-- The content of a value is read, whatever follows the value. -/
theorem readElement_append (h : Fits content) (tag : UInt8) (rest : List UInt8) :
    readElement tag (element tag content ++ rest) = some (content, rest) := by
  rw [element, List.cons_append, readElement, if_pos rfl, readContent_append h]

/-- A value takes few bytes more than its content. -/
theorem length_element_le (h : Fits content) (tag : UInt8) :
    (element tag content).length ≤ content.length + 6 := by
  have hlength := length_lengthBytes_le h.length_le
  have hmax : maxLengthBytes = 4 := rfl
  rw [element, List.length_cons, List.length_append]
  omega

/-- A value takes at least two bytes more than its content. -/
theorem length_add_two_le_element (tag : UInt8) (content : List UInt8) :
    content.length + 2 ≤ (element tag content).length := by
  have hpos := length_lengthBytes_pos content.length
  rw [element, List.length_cons, List.length_append]
  omega

/-- A value is longer than another by no less than its content is, whatever their tags. -/
theorem length_element_add_le (tag other : UInt8) {longer : List UInt8} {extra : Nat}
    (h : content.length + extra ≤ longer.length) :
    (element tag content).length + extra ≤ (element other longer).length := by
  have hlength := length_lengthBytes_mono (Nat.le_of_add_right_le h)
  rw [element, element, List.length_cons, List.length_cons, List.length_append,
    List.length_append]
  omega

/-- Nothing is left over when nothing follows. -/
@[simp]
theorem whole_some_nil {α : Type} (result : α) : whole (some (result, [])) = some result := rfl

/-- A value is read as a whole when nothing follows it. -/
theorem whole_readElement (h : Fits content) (tag : UInt8) :
    whole (readElement tag (element tag content)) = some content := by
  have hread := readElement_append h tag []
  rw [List.append_nil] at hread
  rw [hread, whole_some_nil]

/-! ## Integers, bit strings and octet strings -/

/-- A natural number is read, whatever follows it. -/
theorem readNat_append {n : Nat} (h : Fits (BigEndian.signed n)) (rest : List UInt8) :
    readNat (integer n ++ rest) = some (n, rest) := by
  rw [readNat, integer, readElement_append h]
  simp [natOfContent]

/-- A natural number is read as a whole when nothing follows it. -/
theorem whole_readNat {n : Nat} (h : Fits (BigEndian.signed n)) :
    whole (readNat (integer n)) = some n := by
  have hread := readNat_append h []
  rw [List.append_nil] at hread
  rw [hread, whole_some_nil]

/-- An octet string is read, whatever follows it. -/
theorem readOctets_append {bytes : List UInt8} (h : Fits bytes) (rest : List UInt8) :
    readOctets (octetString bytes ++ rest) = some (bytes, rest) :=
  readElement_append h octetStringTag rest

/-- A bit string of whole bytes is read, whatever follows it. -/
theorem readBits_append {bytes : List UInt8} (h : Fits (0 :: bytes)) (rest : List UInt8) :
    readBits (bitString bytes ++ rest) = some (⟨0, bytes⟩, rest) := by
  rw [readBits, bitString, readElement_append h]
  simp [bitsOfContent]

/-- A bit string of whole bytes is read as a whole when nothing follows it. -/
theorem whole_readBits {bytes : List UInt8} (h : Fits (0 :: bytes)) :
    whole (readBits (bitString bytes)) = some ⟨0, bytes⟩ := by
  have hread := readBits_append h []
  rw [List.append_nil] at hread
  rw [hread, whole_some_nil]

/-- A sequence is read as a whole when nothing follows it. -/
@[simp]
theorem contentOfSequence?_sequence (h : Fits content) :
    contentOfSequence? (sequence content) = some content := by
  rw [contentOfSequence?, sequence, if_pos (fits_iff.1 h), readSequence, whole_readElement h]

/-- A sequence is written when there is room for it. -/
theorem sequence?_eq_some_iff {bytes : List UInt8} :
    sequence? content = some bytes ↔ Fits content ∧ bytes = sequence content := by
  unfold sequence?
  split
  · next hfits => simp [hfits, eq_comm]
  · next hfits => simp [hfits]

/-- A number of few bits takes few bytes, and a few more for its tag and length. -/
theorem length_integer_le {n width : Nat} (hwidth : 0 < width) (h : n < 256 ^ width)
    (hfits : width + 7 ≤ maxLength) :
    Fits (BigEndian.signed n) ∧ (integer n).length ≤ width + 7 := by
  have hsigned : (BigEndian.signed n).length ≤ width + 1 :=
    Nat.le_trans (BigEndian.length_signed_le n)
      (Nat.add_le_add_right (BigEndian.length_shortest_le hwidth h) 1)
  have hcontent : Fits (BigEndian.signed n) := fits_of_length_le (by omega)
  have hlength := length_element_le hcontent integerTag
  exact ⟨hcontent, by rw [integer]; omega⟩

/-- A number of many bits takes many bytes, and at least two more for its tag and length. -/
theorem lt_length_integer {n width : Nat} (h : 256 ^ width ≤ n) :
    width + 2 < (integer n).length := by
  have hsigned := Nat.lt_of_lt_of_le (BigEndian.lt_length_shortest h)
    (BigEndian.length_shortest_le_signed n)
  have hlength := length_add_two_le_element integerTag (BigEndian.signed n)
  rw [integer]
  omega

/-! ## Lengths of what is read -/

/-- A content and what follows it are shorter than the bytes that they are read from. -/
theorem length_lt_of_readElement {tag : UInt8} {bytes content rest : List UInt8}
    (h : readElement tag bytes = some (content, rest)) :
    content.length + rest.length < bytes.length := by
  cases bytes with
  | nil => cases h
  | cons first more =>
      rw [readElement] at h
      split at h
      · simp only [readContent, Option.bind_eq_bind, Option.bind_eq_some_iff] at h
        obtain ⟨⟨length, found⟩, hlength, h⟩ := h
        have hlt := length_lt_of_readLength hlength
        dsimp only at h
        split at h
        · cases h
          rw [List.length_take, List.length_drop, List.length_cons]
          omega
        · cases h
      · cases h

/-- What is read as a whole leaves nothing over. -/
theorem eq_some_of_whole {α : Type} {reading : Option (α × List UInt8)} {result : α}
    (h : whole reading = some result) : reading = some (result, []) := by
  unfold whole at h
  split at h
  · cases h
    rfl
  · cases h

/-- A number has no more digits than there are bytes to read it from, and what follows is
shorter. -/
theorem lt_pow_of_readNat {bytes rest : List UInt8} {n width : Nat}
    (h : readNat bytes = some (n, rest)) (hwidth : bytes.length ≤ width) :
    n < 256 ^ width ∧ rest.length ≤ width := by
  simp only [readNat, Option.bind_eq_bind, Option.bind_eq_some_iff, natOfContent] at h
  obtain ⟨⟨content, more⟩, helement, number, hnumber, h⟩ := h
  cases h
  have hlt := length_lt_of_readElement helement
  have hcontent : content.length ≤ width := by omega
  have hrest : more.length ≤ width := by omega
  split at hnumber
  · cases hnumber
    have hpow : (256 : Nat) ^ content.length ≤ 256 ^ width :=
      Nat.pow_le_pow_right (by decide) hcontent
    exact ⟨Nat.lt_of_lt_of_le (BigEndian.toNat_lt content) hpow, hrest⟩
  · cases hnumber

/-- The one sequence that bytes are is read from them, and leaves nothing over. -/
theorem readSequence_of_contentOfSequence? {bytes : List UInt8}
    (h : contentOfSequence? bytes = some content) : readSequence bytes = some (content, []) := by
  unfold contentOfSequence? at h
  split at h
  · exact eq_some_of_whole h
  · cases h

/-- The content of a sequence is shorter than the sequence. -/
theorem length_lt_of_contentOfSequence? {bytes : List UInt8}
    (h : contentOfSequence? bytes = some content) : content.length < bytes.length :=
  length_lt_of_readElement (readSequence_of_contentOfSequence? h)

/-! ## Values in front of other bytes -/

variable {bytes rest : List UInt8}

/-- A length is read in the same way if something follows. -/
theorem readLength_extend {length : Nat} (h : readLength bytes = some (length, rest))
    (more : List UInt8) : readLength (bytes ++ more) = some (length, rest ++ more) := by
  cases bytes with
  | nil => cases h
  | cons first tail =>
      rw [readLength] at h
      rw [List.cons_append, readLength]
      split at h
      · next hshort =>
          cases h
          rw [if_pos hshort]
      · next hlong =>
          dsimp only at h
          split at h
          · next hdigits =>
              simp only [Option.some.injEq, Prod.mk.injEq] at h
              obtain ⟨rfl, rfl⟩ := h
              have hcount : first.toNat - 128 ≤ tail.length :=
                hdigits.2.1 ▸ List.length_take_le' _ _
              rw [if_neg hlong]
              simp only [List.take_append_of_le_length hcount, List.drop_append_of_le_length hcount]
              rw [if_pos hdigits]
          · cases h

/-- A length and its content are read in the same way if something follows. -/
theorem readContent_extend {content : List UInt8} (h : readContent bytes = some (content, rest))
    (more : List UInt8) : readContent (bytes ++ more) = some (content, rest ++ more) := by
  simp only [readContent, Option.bind_eq_bind, Option.bind_eq_some_iff] at h
  obtain ⟨⟨length, tail⟩, hlength, h⟩ := h
  dsimp only at h
  split at h
  · next hle =>
      cases h
      have hmore : length ≤ (tail ++ more).length := by
        rw [List.length_append]
        omega
      simp only [readContent, readLength_extend hlength, Option.bind_eq_bind, Option.bind_some]
      rw [if_pos hmore, List.take_append_of_le_length hle, List.drop_append_of_le_length hle]
  · cases h

/-- A value is read in the same way if something follows. -/
theorem readElement_extend {tag : UInt8} {content : List UInt8}
    (h : readElement tag bytes = some (content, rest)) (more : List UInt8) :
    readElement tag (bytes ++ more) = some (content, rest ++ more) := by
  cases bytes with
  | nil => cases h
  | cons first tail =>
      rw [readElement] at h
      rw [List.cons_append, readElement]
      split at h
      · next htag => rw [if_pos htag, readContent_extend h]
      · cases h

/-- No sequence is the beginning of another. -/
theorem eq_nil_of_isSequence_append (hfirst : isSequence bytes = true)
    (hboth : isSequence (bytes ++ rest) = true) : rest = [] := by
  obtain ⟨content, hcontent⟩ := Option.isSome_iff_exists.1 hfirst
  obtain ⟨other, hother⟩ := Option.isSome_iff_exists.1 hboth
  have hread := readElement_extend (readSequence_of_contentOfSequence? hcontent) rest
  rw [List.nil_append, ← readSequence, readSequence_of_contentOfSequence? hother] at hread
  cases hread
  rfl

/-- A sequence that was written is one. -/
theorem isSequence_of_sequence? {bytes : List UInt8} (h : sequence? content = some bytes) :
    isSequence bytes = true := by
  obtain ⟨hfits, rfl⟩ := sequence?_eq_some_iff.1 h
  rw [isSequence, contentOfSequence?_sequence hfits]
  rfl

end SigningKeys.Der
