import Mathlib.Algebra.Group.Nat.Defs
import Mathlib.Tactic.Ring
import SigningKeys.Number.Modular

/-!
# Inverses modulo a number

When a number has an inverse (`isSome_inverse?_iff`), how large it is (`inverse?_lt`), and that it
is one (`inverse?_mul_mod`). The factor that Euclid's algorithm finds may be negative, but then it
is enough to add the modulus to it once (`integerInverse?_eq`).
-/

namespace SigningKeys.Modular

/-- Euclid's algorithm gives the greatest common divisor. -/
theorem bezout_fst (a b : Nat) : (bezout a b).1 = Nat.gcd a b := by
  induction a, b using bezout.induct with
  | case1 b => rw [bezout, if_pos rfl, Nat.gcd_zero_left]
  | case2 a b hne _ _ _ _ ih =>
      rw [bezout, if_neg hne]
      show (bezout (b % a) a).1 = Nat.gcd a b
      rw [ih, ← Nat.gcd_rec]

/-- Euclid's algorithm gives factors that make up the greatest common divisor. -/
theorem bezout_snd (a b : Nat) :
    (bezout a b).2.1 * a + (bezout a b).2.2 * b = ((bezout a b).1 : Int) := by
  induction a, b using bezout.induct with
  | case1 b => simp [bezout]
  | case2 a b hne _ _ _ _ ih =>
      rw [bezout, if_neg hne]
      have hmod : ((b % a : Nat) : Int) = b - a * (b / a : Nat) := by
        rw [Int.natCast_emod, Int.natCast_ediv, Int.emod_def]
      show ((bezout (b % a) a).2.2 - (b / a : Nat) * (bezout (b % a) a).2.1) * (a : Int) +
        (bezout (b % a) a).2.1 * b = (bezout (b % a) a).1
      rw [← ih, hmod]
      ring

/-- The inverse of a coprime number is a factor of Euclid's algorithm, brought below the modulus. -/
theorem inverse?_eq (a modulus : Nat) :
    inverse? a modulus =
      if Nat.Coprime a modulus then
        some ((bezout (a % modulus) modulus).2.1 % (modulus : Int)).toNat
      else none := by
  have hgcd : (bezout (a % modulus) modulus).1 = Nat.gcd a modulus := by
    rw [bezout_fst, ← Nat.gcd_rec, Nat.gcd_comm]
  show (if (bezout (a % modulus) modulus).1 = 1 then _ else none) = _
  rw [hgcd]

/-- A number has an inverse exactly when it shares no factor with the modulus. -/
theorem isSome_inverse?_iff {a modulus : Nat} :
    (inverse? a modulus).isSome ↔ Nat.Coprime a modulus := by
  rw [inverse?_eq]
  split
  · next h => simpa using h
  · next h => simpa using h

/-- An inverse is below the modulus. -/
theorem inverse?_lt {a modulus inverse : Nat} (hpos : 0 < modulus)
    (h : inverse? a modulus = some inverse) : inverse < modulus := by
  rw [inverse?_eq] at h
  split at h
  · cases h
    have hnonneg := Int.emod_nonneg (bezout (a % modulus) modulus).2.1
      (Int.natCast_ne_zero.2 (Nat.ne_of_gt hpos))
    have hlt := Int.emod_lt_of_pos (bezout (a % modulus) modulus).2.1 (Int.natCast_pos.2 hpos)
    exact (Int.toNat_lt hnonneg).2 hlt
  · cases h

/-- An inverse times the number leaves the remainder of 1. -/
theorem inverse?_mul_mod {a modulus inverse : Nat} (hpos : 0 < modulus)
    (h : inverse? a modulus = some inverse) : inverse * a % modulus = 1 % modulus := by
  rw [inverse?_eq] at h
  split at h
  · next hcoprime =>
      have hgcd : (bezout (a % modulus) modulus).1 = 1 := by
        rw [bezout_fst, ← Nat.gcd_rec, Nat.gcd_comm]
        exact hcoprime
      have hsum := bezout_snd (a % modulus) modulus
      rw [hgcd] at hsum
      generalize (bezout (a % modulus) modulus).2.1 = factor at h hsum
      generalize (bezout (a % modulus) modulus).2.2 = other at hsum
      have hinverse : (inverse : Int) = factor % modulus := by
        have hnonneg := Int.emod_nonneg factor (Int.natCast_ne_zero.2 (Nat.ne_of_gt hpos))
        rw [← Option.some.inj h, Int.toNat_of_nonneg hnonneg]
      have hfactor : factor * (a % modulus : Nat) = 1 - other * modulus := by omega
      refine Int.natCast_inj.1 ?_
      calc ((inverse * a % modulus : Nat) : Int)
          = factor * (a % modulus : Nat) % modulus := by
            rw [Int.natCast_emod, Int.natCast_mul, hinverse, Int.natCast_emod, Int.mul_emod,
              Int.emod_emod, ← Int.mul_emod factor a, Int.mul_emod factor a,
              Int.mul_emod factor (a % _), Int.emod_emod]
        _ = (1 % modulus : Nat) := by
            rw [hfactor, Int.sub_mul_emod_self_right]
            rfl
  · cases h

/-! ## Inverses as integers -/

/-- The factors of Euclid's algorithm times the divisor are no greater than the other number. -/
theorem natAbs_bezout_mul_le {a b : Nat} (ha : 0 < a) (hb : 0 < b) :
    (bezout a b).2.1.natAbs * (bezout a b).1 ≤ b ∧
      (bezout a b).2.2.natAbs * (bezout a b).1 ≤ a := by
  induction a, b using bezout.induct with
  | case1 b => exact absurd ha (Nat.lt_irrefl 0)
  | case2 a b hne _ _ _ _ ih =>
      have hdivision := Nat.mod_add_div b a
      rw [bezout, if_neg hne]
      show ((bezout (b % a) a).2.2 - (b / a : Nat) * (bezout (b % a) a).2.1).natAbs *
          (bezout (b % a) a).1 ≤ b ∧ (bezout (b % a) a).2.1.natAbs * (bezout (b % a) a).1 ≤ a
      rcases Nat.eq_zero_or_pos (b % a) with hzero | hpos
      · have hle : a ≤ b := Nat.le_of_dvd hb (Nat.dvd_of_mod_eq_zero hzero)
        rw [hzero, bezout, if_pos rfl]
        simpa using hle
      · obtain ⟨hleft, hright⟩ := ih hpos ha
        generalize bezout (b % a) a = found at hleft hright ⊢
        obtain ⟨divisor, left, right⟩ := found
        refine ⟨?_, hleft⟩
        calc (right - (b / a : Nat) * left).natAbs * divisor
            ≤ (right.natAbs + b / a * left.natAbs) * divisor := by
              refine Nat.mul_le_mul_right divisor ((Int.natAbs_sub_le _ _).trans_eq ?_)
              rw [Int.natAbs_mul, Int.natAbs_natCast]
          _ = right.natAbs * divisor + b / a * (left.natAbs * divisor) := by ring
          _ ≤ b % a + b / a * a := Nat.add_le_add hright (Nat.mul_le_mul_left _ hleft)
          _ = b := by rw [Nat.mul_comm, hdivision]

/-- The inverse as an integer: the factor of Euclid's algorithm, to which the modulus is added once
if it is negative. -/
def integerInverse? (a modulus : Nat) : Option Int :=
  let (divisor, factor, _) := bezout (a % modulus) modulus
  if divisor = 1 then some (if factor < 0 then factor + modulus else factor) else none

/-- The factor of a coprime number is at least the negative of the modulus, and below the
modulus. -/
theorem bezout_bounds {a modulus : Nat} (hpos : 0 < modulus)
    (hdivisor : (bezout (a % modulus) modulus).1 = 1) :
    -(modulus : Int) ≤ (bezout (a % modulus) modulus).2.1 ∧
      (bezout (a % modulus) modulus).2.1 < modulus := by
  rcases Nat.eq_zero_or_pos (a % modulus) with hzero | hresidue
  · rw [hzero, bezout, if_pos rfl]
    show -(modulus : Int) ≤ 0 ∧ 0 < (modulus : Int)
    omega
  · have hle := (natAbs_bezout_mul_le hresidue hpos).1
    have hsum := bezout_snd (a % modulus) modulus
    have hlt := Nat.mod_lt a hpos
    rw [hdivisor] at hle hsum
    generalize (bezout (a % modulus) modulus).2.1 = factor at hle hsum
    generalize (bezout (a % modulus) modulus).2.2 = other at hsum
    -- The modulus itself is no factor: it would divide one, and no residue but zero is below one.
    have hne : factor ≠ modulus := by
      rintro rfl
      have hdvd : (modulus : Int) ∣ ((1 : Nat) : Int) :=
        ⟨((a % modulus : Nat) : Int) + other, by rw [← hsum]; ring⟩
      have hone := Nat.le_of_dvd Nat.one_pos (Int.natCast_dvd_natCast.1 hdvd)
      omega
    omega

/-- Adding the modulus to a negative factor is enough to bring it below the modulus. -/
theorem integerInverse?_eq {a modulus : Nat} (hpos : 0 < modulus) :
    integerInverse? a modulus = (inverse? a modulus).map Int.ofNat := by
  show (if (bezout (a % modulus) modulus).1 = 1 then _ else none) =
    Option.map Int.ofNat (if (bezout (a % modulus) modulus).1 = 1 then _ else none)
  split
  · next hdivisor =>
      obtain ⟨hge, hlt⟩ := bezout_bounds hpos hdivisor
      generalize (bezout (a % modulus) modulus).2.1 = factor at hge hlt
      show some (if factor < 0 then factor + modulus else factor) =
        some ((factor % modulus).toNat : Int)
      have hresidue : factor % modulus = if factor < 0 then factor + modulus else factor := by
        split
        · next hnegative =>
            rw [← Int.add_emod_right]
            exact Int.emod_eq_of_lt (by omega) (by omega)
        · next hnonneg => exact Int.emod_eq_of_lt (by omega) hlt
      rw [Int.toNat_of_nonneg (Int.emod_nonneg _ (by omega)), hresidue]
  · rfl

end SigningKeys.Modular
