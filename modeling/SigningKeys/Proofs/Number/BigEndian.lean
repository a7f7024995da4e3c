import Mathlib.Algebra.Group.Nat.Defs
import Mathlib.Data.List.Induction
import SigningKeys.Number.BigEndian

/-!
# Numbers from their bytes

Each way to write a number as bytes gives the number back (`toNat_shortest`, `toNat_signed`,
`toNat_padded`), and takes no more bytes than the number needs. The shortest form has no leading
zero byte that could be left out (`isShortest_shortest`).
-/

namespace SigningKeys.BigEndian

/-- A last byte is the lowest digit. -/
@[simp]
theorem toNat_append_singleton (bytes : List UInt8) (byte : UInt8) :
    toNat (bytes ++ [byte]) = toNat bytes * 256 + byte.toNat := by
  simp [toNat, List.foldl_append]

/-- A leading zero byte does not count. -/
theorem toNat_zero_cons (bytes : List UInt8) : toNat (0 :: bytes) = toNat bytes := rfl

/-- The byte of the lowest digit is that digit. -/
theorem toNat_ofNat_mod (n : Nat) : (UInt8.ofNat (n % 256)).toNat = n % 256 := by
  simp

/-- A number is below the power of 256 of its bytes. -/
theorem toNat_lt (bytes : List UInt8) : toNat bytes < 256 ^ bytes.length := by
  induction bytes using List.reverseRecOn with
  | nil => decide
  | append_singleton bytes byte ih =>
      have hbyte := byte.toNat_lt
      rw [toNat_append_singleton, List.length_append, List.length_singleton, Nat.pow_succ]
      omega

/-! ## The fewest bytes -/

/-- The fewest bytes of a number stand for it. -/
@[simp]
theorem toNat_shortest (n : Nat) : toNat (shortest n) = n := by
  induction n using shortest.induct with
  | case1 n hlt =>
      rw [shortest, if_pos hlt]
      simp [toNat, Nat.mod_eq_of_lt hlt]
  | case2 n hlt ih =>
      rw [shortest, if_neg hlt, toNat_append_singleton, ih, toNat_ofNat_mod]
      omega

/-- A number below a power of 256 takes no more bytes than the power says. -/
theorem length_shortest_le {n width : Nat} (hwidth : 0 < width) (h : n < 256 ^ width) :
    (shortest n).length ≤ width := by
  induction n using shortest.induct generalizing width with
  | case1 n hlt =>
      rw [shortest, if_pos hlt]
      exact hwidth
  | case2 n hlt ih =>
      obtain ⟨rest, rfl⟩ : ∃ rest, width = rest + 1 := ⟨width - 1, by omega⟩
      have hrest : n / 256 < 256 ^ rest := by
        rw [Nat.pow_succ] at h
        omega
      -- A number with a further digit does not fit one byte.
      have hpos : 0 < rest := by
        cases rest with
        | zero => simp only [Nat.zero_add, Nat.pow_one] at h; omega
        | succ rest => omega
      rw [shortest, if_neg hlt, List.length_append, List.length_singleton]
      have hle := ih hpos hrest
      omega

/-- A number is below the power of 256 with as many digits. -/
theorem lt_pow_length_shortest (n : Nat) : n < 256 ^ (shortest n).length := by
  have hlt := toNat_lt (shortest n)
  rwa [toNat_shortest] at hlt

/-- A number that is not below a power of 256 has more digits. -/
theorem lt_length_shortest {n width : Nat} (h : 256 ^ width ≤ n) : width < (shortest n).length := by
  refine Nat.lt_of_not_le fun hle ↦ ?_
  have hpow : (256 : Nat) ^ (shortest n).length ≤ 256 ^ width :=
    Nat.pow_le_pow_right (by decide) hle
  have hlt := lt_pow_length_shortest n
  omega

/-- No leading zero byte could be left out; zero itself is one zero byte. -/
def IsShortest (bytes : List UInt8) : Prop := bytes ≠ [] ∧ (bytes.head? = some 0 → bytes = [0])

/-- The fewest bytes of a number have no leading zero byte that could be left out. -/
theorem isShortest_shortest (n : Nat) : IsShortest (shortest n) := by
  induction n using shortest.induct with
  | case1 n hlt =>
      rw [shortest, if_pos hlt]
      refine ⟨List.cons_ne_nil _ _, fun h ↦ ?_⟩
      rw [List.head?_cons, Option.some.injEq] at h
      rw [h]
  | case2 n hlt ih =>
      obtain ⟨hne, hzero⟩ := ih
      rw [shortest, if_neg hlt]
      refine ⟨List.append_ne_nil_of_right_ne_nil _ (List.cons_ne_nil _ _), fun h ↦ ?_⟩
      -- The digits above the lowest one would be a single zero, but the number has a second digit.
      have hhigh : (shortest (n / 256)).head? = some 0 := by
        rw [List.head?_append, List.head?_eq_some_head hne, Option.some_or] at h
        rw [List.head?_eq_some_head hne, h]
      have heq : n / 256 = 0 := by
        rw [← toNat_shortest (n / 256), hzero hhigh]
        rfl
      omega

/-- A number that is not larger has no more digits. -/
theorem length_shortest_mono {m n : Nat} (h : m ≤ n) :
    (shortest m).length ≤ (shortest n).length :=
  length_shortest_le (List.length_pos_iff.2 (isShortest_shortest n).1)
    (Nat.lt_of_le_of_lt h (lt_pow_length_shortest n))

/-! ## Two's complement -/

/-- The two's complement form is the shortest one, perhaps after a zero byte. -/
theorem signed_eq (n : Nat) : signed n = shortest n ∨ signed n = 0 :: shortest n := by
  unfold signed
  cases hbytes : shortest n with
  | nil => exact .inl rfl
  | cons first rest =>
      show (if first < 128 then first :: rest else 0 :: first :: rest) = first :: rest ∨
        (if first < 128 then first :: rest else 0 :: first :: rest) = 0 :: first :: rest
      split
      · exact .inl rfl
      · exact .inr rfl

/-- The two's complement form of a number stands for it. -/
@[simp]
theorem toNat_signed (n : Nat) : toNat (signed n) = n := by
  rcases signed_eq n with h | h
  · rw [h, toNat_shortest]
  · rw [h, toNat_zero_cons, toNat_shortest]

/-- The two's complement form takes at most one byte more. -/
theorem length_signed_le (n : Nat) : (signed n).length ≤ (shortest n).length + 1 := by
  rcases signed_eq n with h | h <;> simp [h]

/-- The two's complement form of a number has at least its digits. -/
theorem length_shortest_le_signed (n : Nat) : (shortest n).length ≤ (signed n).length := by
  rcases signed_eq n with h | h <;> simp [h]

/-- Without its sign byte the two's complement form is the shortest one. -/
theorem dropSign_signed (n : Nat) : dropSign (signed n) = shortest n := by
  obtain ⟨hne, hzero⟩ := isShortest_shortest n
  unfold signed
  cases hbytes : shortest n with
  | nil => exact absurd hbytes hne
  | cons first rest =>
      show dropSign (if first < 128 then first :: rest else 0 :: first :: rest) = first :: rest
      split
      · rw [hbytes, List.head?_cons, Option.some.injEq] at hzero
        by_cases hfirst : first = 0
        · rw [hzero hfirst]
          rfl
        · rw [dropSign]
          intro byte more h
          exact hfirst (List.cons.inj h).1
      · rfl

/-! ## As many bytes as a width -/

/-- There are as many bytes as the width says. -/
@[simp]
theorem length_padded (width n : Nat) : (padded width n).length = width := by
  induction width generalizing n with
  | zero => rfl
  | succ width ih => simp [padded, ih]

/-- The bytes of a number that fits the width stand for it. -/
theorem toNat_padded {width n : Nat} (h : n < 256 ^ width) : toNat (padded width n) = n := by
  induction width generalizing n with
  | zero =>
      rw [Nat.pow_zero] at h
      show 0 = n
      omega
  | succ width ih =>
      have hhigh : n / 256 < 256 ^ width := by
        rw [Nat.pow_succ] at h
        omega
      rw [padded, toNat_append_singleton, ih hhigh, toNat_ofNat_mod]
      omega

/-! ## Bits -/

/-- A number is below the power of two of its bits. -/
theorem lt_two_pow_bitLength (n : Nat) : n < 2 ^ bitLength n := by
  unfold bitLength
  split
  · next hzero => simp [hzero]
  · exact Nat.lt_log2_self

/-- A number of at most eight bits a byte fits the bytes. -/
theorem lt_pow_of_bitLength_le {n width : Nat} (h : bitLength n ≤ 8 * width) : n < 256 ^ width := by
  have hle : 2 ^ bitLength n ≤ 2 ^ (8 * width) := Nat.pow_le_pow_right (by omega) h
  have heq : (2 : Nat) ^ (8 * width) = 256 ^ width := by rw [Nat.pow_mul]
  have hlt := lt_two_pow_bitLength n
  omega

end SigningKeys.BigEndian
