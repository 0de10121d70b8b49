import TaxStamp.Lib.Decimal
import Mathlib.Algebra.Order.Field.Rat
import Mathlib.Tactic.Linarith
import Mathlib.Tactic.Ring

/-!
# Exact decimal operations

An operation is exact when its result fits the precision of the context. A product is
exact when its coefficient has few enough digits; a quotient by a power of ten is exact
whenever the dividend is, however its trailing zeros are dropped. Rounding an exact
quotient to an integer is then the only rounding, half away from zero.
-/

namespace TaxStamp.Lib

/-- The nearest integer of a rational number, away from zero when two are equally near. -/
def IsNearestHalfAway (x : ℚ) (r : ℤ) : Prop := |(r : ℚ) - x| ≤ 1 / 2 ∧ (|(r : ℚ) - x| = 1 / 2 → |x| < |(r : ℚ)|)

/-- There is one nearest integer. -/
theorem IsNearestHalfAway.unique {x : ℚ} {r s : ℤ} (hr : IsNearestHalfAway x r) (hs : IsNearestHalfAway x s) : r = s := by
  obtain ⟨hrle, hrtie⟩ := hr
  obtain ⟨hsle, hstie⟩ := hs
  by_contra hne
  wlog hlt : r < s generalizing r s with hother
  · exact hother hsle hstie hrle hrtie (Ne.symm hne) (by omega)
  -- two different nearest integers are neighbours, with the number halfway between them
  have hstep : (r : ℚ) + 1 ≤ s := by exact_mod_cast hlt
  rw [abs_le] at hrle hsle
  have hrx : (r : ℚ) - x = -(1 / 2) := by linarith
  have hsx : (s : ℚ) - x = 1 / 2 := by linarith
  have hrabs := hrtie (by rw [hrx, abs_neg, abs_of_pos (by norm_num)])
  have hsabs := hstie (by rw [hsx, abs_of_pos (by norm_num)])
  rcases le_or_gt 0 r with hsign | hsign
  · have hsign' : (0 : ℚ) ≤ r := by exact_mod_cast hsign
    rw [abs_of_nonneg hsign', abs_of_nonneg (by linarith)] at hrabs
    linarith
  · have hsign' : (r : ℚ) + 1 ≤ 0 := by exact_mod_cast hsign
    rw [abs_of_nonpos (by linarith : (s : ℚ) ≤ 0), abs_of_nonpos (by linarith)] at hsabs
    linarith

namespace Decimal

/-- The coefficients with a number of digits at most. -/
theorem digits_le_iff {n k : ℕ} (hk : 0 < k) : digits n ≤ k ↔ n < 10 ^ k :=
  Nat.length_toDigits_le_iff (by decide) hk

/-- The digits of a power of ten. -/
theorem digits_pow (k : ℕ) : digits (10 ^ k) = k + 1 := by
  have hle : digits (10 ^ k) ≤ k + 1 := (digits_le_iff (by omega)).mpr (Nat.pow_lt_pow_right (by decide) (by omega))
  rcases Nat.eq_zero_or_pos k with rfl | hpos
  · rfl
  · have hgt : ¬digits (10 ^ k) ≤ k := fun h => Nat.lt_irrefl _ ((digits_le_iff hpos).mp h)
    omega

/-- A coefficient with few enough digits is not rounded. -/
theorem fix_exact {prec : ℕ} (hprec : 0 < prec) {d : Decimal} (h : d.coeff.natAbs < 10 ^ prec) : fix prec d = d := by
  rw [fix, if_pos ((digits_le_iff hprec).mpr h)]

/-- Zeros are dropped as long as there are any, up to the budget. -/
theorem stripZeros_eq (budget n : ℕ) (exp : ℤ) : ∃ k ≤ budget, stripZeros budget n exp = (n / 10 ^ k, exp + k) ∧
    10 ^ k ∣ n ∧ (k = budget ∨ n / 10 ^ k % 10 ≠ 0) := by
  induction budget generalizing n exp with
  | zero => exact ⟨0, le_rfl, by simp [stripZeros], one_dvd n, .inl rfl⟩
  | succ budget ih =>
    by_cases hzero : n % 10 = 0
    · obtain ⟨k, hk, heq, hdvd, hstop⟩ := ih (n / 10) (exp + 1)
      have hdiv : n / 10 / 10 ^ k = n / 10 ^ (k + 1) := by rw [Nat.div_div_eq_div_mul, Nat.pow_succ, Nat.mul_comm]
      refine ⟨k + 1, by omega, ?_, ?_, ?_⟩
      · rw [stripZeros, if_pos hzero, heq, hdiv]
        push_cast
        rw [add_assoc, add_comm 1]
      · rw [Nat.pow_succ, Nat.mul_comm]
        exact (Nat.dvd_div_iff_mul_dvd (Nat.dvd_of_mod_eq_zero hzero)).mp hdvd
      · rw [← hdiv]
        exact hstop.imp_left fun h => by rw [h]
    · exact ⟨0, by omega, by simp [stripZeros, hzero], one_dvd n, .inr (by simpa using hzero)⟩

/-- All zeros of a known power of ten are dropped. -/
theorem stripZeros_mul {budget n zeros : ℕ} (h : zeros ≤ budget) (exp : ℤ) : ∃ j ≤ budget - zeros,
    stripZeros budget (n * 10 ^ zeros) exp = (n / 10 ^ j, exp + zeros + j) ∧ 10 ^ j ∣ n := by
  obtain ⟨k, hk, heq, hdvd, hstop⟩ := stripZeros_eq budget (n * 10 ^ zeros) exp
  have hle : zeros ≤ k := by
    by_contra hlt
    have hrest : n * 10 ^ zeros / 10 ^ k = n * 10 ^ (zeros - k - 1) * 10 := by
      rw [show zeros = zeros - k - 1 + 1 + k by omega, Nat.pow_add, ← Nat.mul_assoc, Nat.mul_div_cancel _ (by positivity),
        Nat.pow_succ, ← Nat.mul_assoc]
      simp
    rcases hstop with rfl | hstop
    · omega
    · rw [hrest, Nat.mul_mod_left] at hstop
      exact hstop rfl
  obtain ⟨j, rfl⟩ := Nat.exists_eq_add_of_le hle
  rw [Nat.pow_add, Nat.mul_comm (10 ^ zeros)] at hdvd heq
  refine ⟨j, by omega, ?_, Nat.dvd_of_mul_dvd_mul_right (by positivity) hdvd⟩
  rw [heq, Nat.mul_div_mul_right _ _ (by positivity)]
  push_cast
  rw [add_assoc]

/-- A magnitude with the sign of its number. -/
theorem withSign_natAbs (n : ℤ) : withSign n n.natAbs = n := by
  unfold withSign
  split <;> omega

/-- The sign of a product with a positive number. -/
theorem withSign_mul_pos {m : ℤ} (hm : 0 < m) (n : ℤ) (magnitude : ℕ) : withSign (n * m) magnitude = withSign n magnitude := by
  have hsign : n * m < 0 ↔ n < 0 := ⟨fun h => neg_of_mul_neg_left h hm.le, fun h => mul_neg_of_neg_of_pos h hm⟩
  simp only [withSign, hsign]

/-- The magnitude of a signed magnitude. -/
theorem natAbs_withSign (n : ℤ) (magnitude : ℕ) : (withSign n magnitude).natAbs = magnitude := by
  unfold withSign
  split <;> omega

/-- A signed magnitude scales with its magnitude. -/
theorem withSign_mul (n : ℤ) (magnitude factor : ℕ) : withSign n magnitude * factor = withSign n (magnitude * factor) := by
  unfold withSign
  split <;> push_cast <;> ring

/-- A quotient by a power of ten is exact: some of the zeros of the divisor are cancelled and the others go to the
exponent. -/
theorem div_pow {prec : ℕ} (hprec : 0 < prec) (k : ℕ) {a : Decimal} (h : a.coeff.natAbs < 10 ^ prec) :
    ∃ j ≤ k, ∃ d, div prec a (ofInt (10 ^ k)) = some d ∧ d.coeff * 10 ^ j = a.coeff ∧ d.exp = a.exp - k + j := by
  have hbase : (ofInt (10 ^ k)).coeff ≠ 0 := by simp [ofInt]
  by_cases hzero : a.coeff = 0
  · exact ⟨k, le_rfl, _, by rw [div, if_neg hbase, if_pos hzero], by simp [hzero], by simp [ofInt]⟩
  have hle : digits a.coeff.natAbs ≤ prec := (digits_le_iff hprec).mpr h
  -- the shift exceeds the zeros of the divisor, so the division has no remainder
  obtain ⟨zeros, hshift⟩ : ∃ zeros : ℕ, (digits (10 ^ k) : ℤ) - digits a.coeff.natAbs + prec + 1 = (zeros + k : ℕ) :=
    ⟨prec - digits a.coeff.natAbs + 2, by rw [digits_pow]; omega⟩
  have hmagnitude : (ofInt (10 ^ k)).coeff.natAbs = 10 ^ k := by rw [ofInt, Int.natAbs_pow]; rfl
  have hexact : a.coeff.natAbs * 10 ^ (zeros + k) = a.coeff.natAbs * 10 ^ zeros * 10 ^ k := by
    rw [Nat.pow_add, Nat.mul_assoc]
  obtain ⟨j, hj, hstrip, hdvd⟩ := stripZeros_mul (n := a.coeff.natAbs) (Nat.le_add_right zeros k) (a.exp - (zeros + k : ℕ))
  refine ⟨j, by omega, ⟨withSign a.coeff (a.coeff.natAbs / 10 ^ j), a.exp - k + j⟩, ?_, ?_, rfl⟩
  · rw [div, if_neg hbase, if_neg hzero]
    simp only [hmagnitude, hshift, Int.toNat_natCast, Int.toNat_neg_natCast, Nat.pow_zero, Nat.mul_one, hexact,
      Nat.mul_mod_left, if_true, Nat.mul_div_cancel _ (Nat.pow_pos (n := k) (show 0 < 10 by decide))]
    have hexp : a.exp - (ofInt (10 ^ k)).exp - ((zeros + k : ℕ) : ℤ) = a.exp - (zeros + k : ℕ) := by simp [ofInt]
    rw [hexp, hstrip, fix_exact hprec]
    · simp only [ofInt, withSign_mul_pos (show (0 : ℤ) < 10 ^ k by positivity)]
      congr 2
      push_cast
      ring
    · rw [natAbs_withSign]
      exact lt_of_le_of_lt (Nat.div_le_self _ _) h
  · have hcast := withSign_mul a.coeff (a.coeff.natAbs / 10 ^ j) (10 ^ j)
    rw [Nat.div_mul_cancel hdvd, withSign_natAbs] at hcast
    exact_mod_cast hcast

/-- The nearest multiple, half up. -/
theorem dropHalfUp_eq (n drop : ℕ) : dropHalfUp n drop = (2 * n + 10 ^ drop) / (2 * 10 ^ drop) := by
  have hpos : 0 < 10 ^ drop := by positivity
  have hmod := Nat.mod_lt n hpos
  have hdiv := Nat.div_add_mod n (10 ^ drop)
  unfold dropHalfUp
  generalize n / 10 ^ drop = q at *
  generalize n % 10 ^ drop = r at *
  generalize 10 ^ drop = m at *
  have htwice : 2 * n = q * (2 * m) + 2 * r := by
    rw [← hdiv]
    ring
  symm
  split
  · apply Nat.div_eq_of_lt_le
    · rw [Nat.add_mul]
      omega
    · rw [Nat.add_mul, Nat.add_mul]
      omega
  · apply Nat.div_eq_of_lt_le
    · omega
    · rw [Nat.add_mul]
      omega

/-- Rounding a number with a negative exponent to an integer. -/
theorem quantizeToInt_eq {prec : ℕ} (hprec : 0 < prec) {d : Decimal} {drop : ℕ} (hexp : d.exp = -drop)
    (h : (2 * d.coeff.natAbs + 10 ^ drop) / (2 * 10 ^ drop) < 10 ^ prec) :
    quantizeToInt prec d = some (withSign d.coeff ((2 * d.coeff.natAbs + 10 ^ drop) / (2 * 10 ^ drop))) := by
  have hmagnitude : (if 0 ≤ d.exp then d.coeff.natAbs * 10 ^ d.exp.toNat else dropHalfUp d.coeff.natAbs (-d.exp).toNat) =
      (2 * d.coeff.natAbs + 10 ^ drop) / (2 * 10 ^ drop) := by
    rw [hexp]
    rcases Nat.eq_zero_or_pos drop with rfl | hdrop
    · simp
      omega
    · rw [if_neg (by omega), neg_neg, Int.toNat_natCast, dropHalfUp_eq]
  unfold quantizeToInt
  simp only [hmagnitude]
  rw [if_pos ((digits_le_iff hprec).mpr h)]

/-- Dividing an integer by a power of ten and rounding to an integer rounds once, half away from zero. -/
theorem div_quantize {prec : ℕ} (hprec : 0 < prec) (k : ℕ) {n : ℤ} (h : n.natAbs < 10 ^ prec) :
    (div prec (ofInt n) (ofInt (10 ^ k))).bind (quantizeToInt prec) =
      some (withSign n ((2 * n.natAbs + 10 ^ k) / (2 * 10 ^ k))) := by
  obtain ⟨j, hj, d, hdiv, hcoeff, hexp⟩ := div_pow hprec k (a := ofInt n) h
  have hexp' : d.exp = -(k - j : ℕ) := by
    rw [hexp, ofInt]
    push_cast [hj]
    ring
  have habs : d.coeff.natAbs * 10 ^ j = n.natAbs := by
    have hcast := congrArg Int.natAbs hcoeff
    rwa [Int.natAbs_mul, Int.natAbs_pow] at hcast
  have hround : (2 * d.coeff.natAbs + 10 ^ (k - j)) / (2 * 10 ^ (k - j)) = (2 * n.natAbs + 10 ^ k) / (2 * 10 ^ k) := by
    have hsplit : 10 ^ k = 10 ^ (k - j) * 10 ^ j := by rw [← Nat.pow_add]; congr 1; omega
    rw [← habs, hsplit, ← Nat.mul_assoc, ← Nat.mul_assoc, ← Nat.add_mul, Nat.mul_div_mul_right _ _ (by positivity)]
  have hsign : withSign d.coeff = withSign n := by
    funext magnitude
    rw [← withSign_mul_pos (show (0 : ℤ) < 10 ^ j by positivity) d.coeff, hcoeff]
    rfl
  rw [hdiv, Option.bind_some, quantizeToInt_eq hprec hexp', hsign, hround]
  rw [hround]
  have hpos : 0 < 10 ^ k := by positivity
  refine lt_of_le_of_lt (Nat.lt_succ_iff.mp ?_) h
  have hmul : n.natAbs * 1 ≤ n.natAbs * 10 ^ k := Nat.mul_le_mul_left _ hpos
  have hproduct : (n.natAbs + 1) * (2 * 10 ^ k) = 2 * (n.natAbs * 10 ^ k) + 2 * 10 ^ k := by ring
  rw [Nat.div_lt_iff_lt_mul (by omega), Nat.succ_eq_add_one, hproduct]
  omega

end Decimal

end TaxStamp.Lib
