import SigningKeys.Proofs.Number.BigEndian

/-!
# Two's complement

Integers of either sign as big-endian bytes whose first bit is the sign (`toInt`), and the fewest
bytes for each (`isFewest_twosComplement`). Of an integer that is not negative, the fewest bytes
without the sign byte are the fewest bytes of a plain number (`IsFewest.dropSign`); of a negative
one they are those of some other number.
-/

namespace SigningKeys.BigEndian

/-- The bytes are read as the value, and no fewer bytes are. There is at least one. -/
structure IsFewest {Value : Type} (read : List UInt8 → Value) (value : Value)
    (bytes : List UInt8) : Prop where
  ne_nil : bytes ≠ []
  read_eq : read bytes = value
  length_le : ∀ other, other ≠ [] → read other = value → bytes.length ≤ other.length

/-! ## Plain numbers -/

/-- A first byte is the highest digit. -/
theorem toNat_cons (byte : UInt8) (bytes : List UInt8) :
    toNat (byte :: bytes) = byte.toNat * 256 ^ bytes.length + toNat bytes := by
  induction bytes using List.reverseRecOn with
  | nil => simp [toNat]
  | append_singleton bytes last ih =>
      rw [← List.cons_append, toNat_append_singleton, ih, toNat_append_singleton,
        List.length_append, List.length_singleton, Nat.pow_succ, Nat.add_mul, Nat.mul_assoc,
        Nat.add_assoc]

/-- As many bytes that stand for the same number are the same. -/
theorem eq_of_toNat_eq {bytes other : List UInt8} (hlength : bytes.length = other.length)
    (h : toNat bytes = toNat other) : bytes = other := by
  induction bytes using List.reverseRecOn generalizing other with
  | nil => exact (List.length_eq_zero_iff.1 hlength.symm).symm
  | append_singleton bytes last ih =>
      cases other using List.reverseRecOn with
      | nil => simp at hlength
      | append_singleton rest lowest =>
          rw [toNat_append_singleton, toNat_append_singleton] at h
          have hlast := last.toNat_lt
          have hlowest := lowest.toNat_lt
          have hrest : bytes = rest := ih (by simpa using hlength) (by omega)
          have hdigit : last = lowest := UInt8.toNat_inj.1 (by omega)
          rw [hrest, hdigit]

/-- The fewest bytes of a number are the fewest that stand for it. -/
theorem isFewest_shortest (n : Nat) : IsFewest toNat n (shortest n) where
  ne_nil := (isShortest_shortest n).1
  read_eq := toNat_shortest n
  length_le other hne h := by
    rw [← h]
    exact length_shortest_le (List.length_pos_iff.2 hne) (toNat_lt other)

/-! ## The sign -/

/-- The first bit is set, which is the sign of a negative integer. -/
def isNegative : List UInt8 → Bool
  | [] => false
  | first :: _ => 128 ≤ first

/-- The integer with the given bytes in two's complement. -/
def toInt (bytes : List UInt8) : Int :=
  toNat bytes - if isNegative bytes then ((256 ^ bytes.length : Nat) : Int) else 0

/-- The bytes with every bit turned over. -/
def complement (bytes : List UInt8) : List UInt8 := bytes.map (~~~ ·)

/-- The fewest bytes of an integer in two's complement. -/
def twosComplement : Int → List UInt8
  | .ofNat n => signed n
  | .negSucc n => complement (signed n)

/-- There are as many bytes when every bit is turned over. -/
@[simp]
theorem length_complement (bytes : List UInt8) : (complement bytes).length = bytes.length :=
  List.length_map _

/-- Turning every bit over leaves no fewer bytes. -/
theorem complement_ne_nil {bytes : List UInt8} (h : bytes ≠ []) : complement bytes ≠ [] :=
  fun heq ↦ h (List.map_eq_nil_iff.1 heq)

/-- Bytes and their complement add up to the largest number that has as many bytes. -/
theorem toNat_complement (bytes : List UInt8) :
    toNat (complement bytes) + toNat bytes + 1 = 256 ^ bytes.length := by
  induction bytes using List.reverseRecOn with
  | nil => rfl
  | append_singleton bytes last ih =>
      have hlast := last.toNat_lt
      have hdigit : (~~~last).toNat = 255 - last.toNat := UInt8.toNat_not last
      show toNat (List.map (~~~ ·) (bytes ++ [last])) + _ + 1 = _
      rw [List.map_append, List.map_singleton, toNat_append_singleton, toNat_append_singleton,
        List.length_append, List.length_singleton, Nat.pow_succ, ← ih, hdigit]
      show toNat (complement bytes) * 256 + _ + _ + 1 = _
      omega

/-- Turning every bit over changes the sign. -/
theorem isNegative_complement {bytes : List UInt8} (h : bytes ≠ []) :
    isNegative (complement bytes) = !isNegative bytes := by
  cases bytes with
  | nil => exact absurd rfl h
  | cons first rest =>
      have hdigit : (~~~first).toNat = 255 - first.toNat := UInt8.toNat_not first
      have hfirst := first.toNat_lt
      show decide (128 ≤ ~~~first) = !decide (128 ≤ first)
      rw [Bool.eq_iff_iff]
      simp only [decide_eq_true_eq, Bool.not_eq_true', decide_eq_false_iff_not,
        UInt8.le_iff_toNat_le, hdigit]
      show 128 ≤ 255 - first.toNat ↔ ¬ 128 ≤ first.toNat
      omega

/-- Turning every bit over gives the negative integer less one. -/
theorem toInt_complement {bytes : List UInt8} (h : bytes ≠ []) :
    toInt (complement bytes) = -toInt bytes - 1 := by
  have hsum := toNat_complement bytes
  rw [toInt, toInt, isNegative_complement h, length_complement, ← hsum]
  cases isNegative bytes <;> simp <;> omega

/-- The integers that have the given number of bytes: half of them are negative. -/
theorem toInt_bounds {bytes : List UInt8} (h : bytes ≠ []) :
    -(256 ^ bytes.length : Nat) ≤ 2 * toInt bytes ∧
      2 * toInt bytes < (256 ^ bytes.length : Nat) := by
  cases bytes with
  | nil => exact absurd rfl h
  | cons first rest =>
      have hrest := toNat_lt rest
      have hfirst := first.toNat_lt
      rw [toInt, toNat_cons, List.length_cons, Nat.pow_succ]
      generalize 256 ^ rest.length = power at hrest
      by_cases hsign : 128 ≤ first.toNat
      · have hnegative : isNegative (first :: rest) = true :=
          decide_eq_true (UInt8.le_iff_toNat_le.2 hsign)
        have hle := Nat.mul_le_mul_right power hsign
        have hlt := Nat.mul_le_mul_right power (Nat.le_of_lt_succ hfirst)
        rw [hnegative, if_pos rfl]
        omega
      · have hnegative : isNegative (first :: rest) = false :=
          decide_eq_false fun hle ↦ hsign (UInt8.le_iff_toNat_le.1 hle)
        have hle := Nat.mul_le_mul_right power (show first.toNat ≤ 127 by omega)
        rw [hnegative, if_neg Bool.false_ne_true]
        omega

/-- As many bytes that stand for the same integer are the same. -/
theorem eq_of_toInt_eq {bytes other : List UInt8} (hlength : bytes.length = other.length)
    (h : toInt bytes = toInt other) : bytes = other := by
  have hbytes := toNat_lt bytes
  have hother := toNat_lt other
  refine eq_of_toNat_eq hlength ?_
  rw [toInt, toInt, hlength] at h
  rw [hlength] at hbytes
  -- The signs agree as well, since the numbers are smaller than what a sign takes away.
  split at h <;> split at h <;> omega

/-! ## The fewest bytes with a sign -/

/-- The two's complement form of a number has no sign. -/
theorem isNegative_signed (n : Nat) : isNegative (signed n) = false := by
  unfold signed
  cases shortest n with
  | nil => rfl
  | cons first rest =>
      show isNegative (if first < 128 then first :: rest else 0 :: first :: rest) = false
      split
      · next hlt => exact decide_eq_false (UInt8.not_le.2 hlt)
      · rfl

/-- The two's complement form of a number stands for it as an integer. -/
@[simp]
theorem toInt_signed (n : Nat) : toInt (signed n) = n := by
  simp [toInt, isNegative_signed]

/-- A number below half a power of 256 takes no more bytes than the power says, a sign included. -/
theorem length_signed_le_of_lt {n width : Nat} (hwidth : 0 < width) (h : 2 * n < 256 ^ width) :
    (signed n).length ≤ width := by
  have hle := length_shortest_le hwidth (show n < 256 ^ width by omega)
  have hn := toNat_shortest n
  unfold signed
  cases hbytes : shortest n with
  | nil => exact Nat.zero_le _
  | cons first rest =>
      rw [hbytes, List.length_cons] at hle
      show (if first < 128 then first :: rest else 0 :: first :: rest).length ≤ width
      split
      · exact hle
      · next hlarge =>
          -- The first byte alone makes the number half a power of 256 as long as the bytes.
          have hfirst : 128 ≤ first.toNat := Nat.le_of_not_lt fun hlt ↦
            hlarge (UInt8.lt_iff_toNat_lt.2 hlt)
          have hhalf := Nat.mul_le_mul_right (256 ^ rest.length) hfirst
          rw [hbytes, toNat_cons] at hn
          have hne : rest.length + 1 ≠ width := by
            rintro rfl
            rw [Nat.pow_succ] at h
            omega
          show rest.length + 2 ≤ width
          omega

/-- The two's complement form of a number is the fewest bytes that stand for it with a sign. -/
theorem isFewest_signed (n : Nat) : IsFewest toInt n (signed n) where
  ne_nil := by
    rcases signed_eq n with h | h
    · rw [h]
      exact (isShortest_shortest n).1
    · rw [h]
      exact List.cons_ne_nil _ _
  read_eq := toInt_signed n
  length_le other hne h := by
    have hbounds := (toInt_bounds hne).2
    rw [h] at hbounds
    exact length_signed_le_of_lt (List.length_pos_iff.2 hne) (by omega)

/-- Turned over bit by bit, the fewest bytes of an integer are the fewest of its negative less
one. -/
theorem IsFewest.complement {n : Int} {bytes : List UInt8} (h : IsFewest toInt n bytes) :
    IsFewest toInt (-n - 1) (complement bytes) where
  ne_nil := complement_ne_nil h.ne_nil
  read_eq := by rw [toInt_complement h.ne_nil, h.read_eq]
  length_le other hne hother := by
    have hle := h.length_le _ (complement_ne_nil hne) (by rw [toInt_complement hne]; omega)
    simpa using hle

/-- Every integer has fewest bytes. -/
theorem isFewest_twosComplement (n : Int) : IsFewest toInt n (twosComplement n) := by
  cases n with
  | ofNat n => exact isFewest_signed n
  | negSucc n =>
      have h := (isFewest_signed n).complement
      rwa [show -(n : Int) - 1 = Int.negSucc n by omega] at h

/-- An integer has no other fewest bytes. -/
theorem IsFewest.eq_twosComplement {n : Int} {bytes : List UInt8} (h : IsFewest toInt n bytes) :
    bytes = twosComplement n := by
  have hform := isFewest_twosComplement n
  have hle := h.length_le _ hform.ne_nil hform.read_eq
  have hge := hform.length_le _ h.ne_nil h.read_eq
  exact eq_of_toInt_eq (Nat.le_antisymm hle hge) (h.read_eq.trans hform.read_eq.symm)

/-! ## Without the sign byte -/

/-- Without the sign byte, the two's complement form of an integer that is not negative is the
fewest bytes of the number. -/
theorem dropSign_twosComplement {n : Int} (h : 0 ≤ n) :
    dropSign (twosComplement n) = shortest n.toNat := by
  obtain ⟨n, rfl⟩ := Int.eq_ofNat_of_zero_le h
  exact dropSign_signed n

/-- Without the sign byte, the fewest bytes of an integer that is not negative are the fewest that
are read as the number without a sign. -/
theorem IsFewest.dropSign {n : Int} {bytes : List UInt8} (hn : 0 ≤ n)
    (h : IsFewest toInt n bytes) : IsFewest toNat n.toNat (dropSign bytes) := by
  rw [h.eq_twosComplement, dropSign_twosComplement hn]
  exact isFewest_shortest n.toNat

/-- What is left of a negative integer stands for another number. -/
example : twosComplement (-44) = [0xd4] ∧ toNat (dropSign (twosComplement (-44))) = 212 := by
  decide +kernel

end SigningKeys.BigEndian
