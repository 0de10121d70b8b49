import TaxStamp.Lib.DecimalContext

/-!
# Decimals with a fixed number of places

An integer divided by a power of ten and rounded to as many places keeps every digit, as long
as the integer fits the precision. A larger one needs more digits than the context has, and
rounding to places refuses it: rounding to the precision never moves the first digit of a
number down to a lower place.
-/

namespace TaxStamp.Lib.Decimal

/-- Round to an exponent, half to even; `none` when the result needs more digits than the context has. -/
def quantize (prec : ℕ) (exp : ℤ) (d : Decimal) : Option Decimal :=
  let magnitude := if exp ≤ d.exp then d.coeff.natAbs * 10 ^ (d.exp - exp).toNat
    else dropHalfEven d.coeff.natAbs (exp - d.exp).toNat
  if digits magnitude ≤ prec then some ⟨withSign d.coeff magnitude, exp⟩ else none

/-- A coefficient is at least every power of ten with fewer digits. -/
theorem pow_le_of_digits {n k : ℕ} (hn : n ≠ 0) (h : k < digits n) : 10 ^ k ≤ n :=
  (Nat.pow_le_pow_right (by decide) (Nat.le_sub_one_of_lt h)).trans (DecimalContext.pow_digits_le hn)

/-- A coefficient that reaches a power of ten has a digit more than its exponent. -/
theorem lt_digits_of_le {n k : ℕ} (h : 10 ^ k ≤ n) : k < digits n := by
  rcases Nat.eq_zero_or_pos k with rfl | hpos
  · exact Nat.length_toDigits_pos
  · rw [← not_le, digits_le_iff hpos]
    exact not_lt.mpr h

/-- Shifting a coefficient up adds digits. -/
theorem le_digits_mul {n : ℕ} (hn : n ≠ 0) (k : ℕ) : digits n + k ≤ digits (n * 10 ^ k) := by
  have hpos : 0 < digits n := Nat.length_toDigits_pos
  have hle : 10 ^ (digits n - 1) ≤ n := DecimalContext.pow_digits_le hn
  have hmul : 10 ^ (digits n - 1 + k) ≤ n * 10 ^ k := by
    rw [Nat.pow_add]
    exact Nat.mul_le_mul_right _ hle
  have hlt := lt_digits_of_le hmul
  omega

/-- Shifting a coefficient down drops no more digits than places. -/
theorem le_digits_div {n : ℕ} (hn : n ≠ 0) (k : ℕ) : digits n ≤ digits (n / 10 ^ k) + k := by
  rcases Nat.lt_or_ge k (digits n) with hlt | hge
  · have hle : 10 ^ (digits n - 1) ≤ n := DecimalContext.pow_digits_le hn
    have hdiv : 10 ^ (digits n - 1 - k) ≤ n / 10 ^ k := by
      rw [Nat.le_div_iff_mul_le (by positivity), ← Nat.pow_add]
      convert hle using 2
      omega
    have hdigits := lt_digits_of_le hdiv
    omega
  · omega

/-- Digits grow with the coefficient. -/
theorem digits_mono {m n : ℕ} (h : m ≤ n) : digits m ≤ digits n :=
  (digits_le_iff Nat.length_toDigits_pos).mpr
    (lt_of_le_of_lt h ((digits_le_iff Nat.length_toDigits_pos).mp le_rfl))

/-- Rounding half to even does not round below the integer part. -/
theorem div_le_dropHalfEven (n drop : ℕ) : n / 10 ^ drop ≤ dropHalfEven n drop := by
  unfold dropHalfEven
  simp only
  split <;> omega

/-- The place above the first digit of a number. -/
def top (d : Decimal) : ℤ := digits d.coeff.natAbs + d.exp

/-- Rounding to the precision does not move the first digit to a lower place. -/
theorem top_le_fix {prec : ℕ} (hprec : 0 < prec) {d : Decimal} (hcoeff : d.coeff ≠ 0) :
    (fix prec d).coeff ≠ 0 ∧ d.top ≤ (fix prec d).top := by
  have hn : d.coeff.natAbs ≠ 0 := Int.natAbs_ne_zero.mpr hcoeff
  unfold fix top
  simp only
  split
  · exact ⟨hcoeff, le_rfl⟩
  rename_i hmany
  have hwhole := div_le_dropHalfEven d.coeff.natAbs (digits d.coeff.natAbs - prec)
  have hkept : digits d.coeff.natAbs ≤
      digits (dropHalfEven d.coeff.natAbs (digits d.coeff.natAbs - prec)) + (digits d.coeff.natAbs - prec) :=
    (le_digits_div hn _).trans (Nat.add_le_add_right (digits_mono hwhole) _)
  have hpositive : 0 < d.coeff.natAbs / 10 ^ (digits d.coeff.natAbs - prec) :=
    Nat.div_pos (pow_le_of_digits hn (by omega)) (by positivity)
  generalize dropHalfEven d.coeff.natAbs (digits d.coeff.natAbs - prec) = rounded at hwhole hkept ⊢
  split
  · simp only [natAbs_withSign, ← Int.natAbs_ne_zero (a := withSign _ _)]
    omega
  · rename_i hcarry
    have hten : 10 ^ 1 ≤ rounded := pow_le_of_digits (by omega) (by omega)
    have hdropped := le_digits_div (n := rounded) (by omega) 1
    rw [Nat.pow_one] at hten hdropped
    simp only [natAbs_withSign, ← Int.natAbs_ne_zero (a := withSign _ _)]
    omega

/-- A number whose first digit is too far above the last place kept is refused. -/
theorem quantize_eq_none {prec : ℕ} {exp : ℤ} {d : Decimal} (hcoeff : d.coeff ≠ 0) (h : prec + exp < d.top) :
    quantize prec exp d = none := by
  have hn : d.coeff.natAbs ≠ 0 := Int.natAbs_ne_zero.mpr hcoeff
  unfold quantize top at *
  simp only
  rw [if_neg]
  rw [not_le]
  split
  · have hshift := le_digits_mul hn (d.exp - exp).toNat
    omega
  · have hround := (le_digits_div hn (exp - d.exp).toNat).trans
      (Nat.add_le_add_right (digits_mono (div_le_dropHalfEven d.coeff.natAbs (exp - d.exp).toNat)) _)
    omega

/-- A rounded number with a sign keeps the first digit of its magnitude in place. -/
theorem top_le_fix_withSign {prec : ℕ} (hprec : 0 < prec) (source : ℤ) {magnitude : ℕ} (hmagnitude : magnitude ≠ 0)
    {exp place : ℤ} (h : place < digits magnitude + exp) :
    (fix prec ⟨withSign source magnitude, exp⟩).coeff ≠ 0 ∧ place < (fix prec ⟨withSign source magnitude, exp⟩).top := by
  have hcoeff : withSign source magnitude ≠ 0 := by
    rw [← Int.natAbs_ne_zero, natAbs_withSign]
    exact hmagnitude
  obtain ⟨hnonzero, hle⟩ := top_le_fix hprec (d := ⟨withSign source magnitude, exp⟩) hcoeff
  refine ⟨hnonzero, lt_of_lt_of_le ?_ hle⟩
  rw [top, natAbs_withSign]
  exact h

/-- The quotient of an integer that does not fit the precision by a power of ten keeps its first digit in place. -/
theorem lt_top_div {prec : ℕ} (hprec : 0 < prec) (k : ℕ) {n : ℤ} (h : 10 ^ prec ≤ n.natAbs) :
    ∃ d, div prec (ofInt n) (ofInt (10 ^ k)) = some d ∧ d.coeff ≠ 0 ∧ (prec : ℤ) - k < d.top := by
  have hbase : (ofInt (10 ^ k)).coeff ≠ 0 := by simp [ofInt]
  have hpow : 0 < 10 ^ prec := by positivity
  have hn : n.natAbs ≠ 0 := by omega
  have hzero : (ofInt n).coeff ≠ 0 := Int.natAbs_ne_zero.mp hn
  have hdividend : (ofInt n).coeff.natAbs = n.natAbs := rfl
  have hmagnitude : (ofInt (10 ^ k)).coeff.natAbs = 10 ^ k := by
    rw [ofInt, Int.natAbs_pow]
    rfl
  have hmany := lt_digits_of_le h
  rw [div, if_neg hbase, if_neg hzero]
  simp only [hmagnitude, hdividend, digits_pow]
  -- The dividend is scaled so that the quotient has at least two digits more than the precision.
  generalize hshift : ((k + 1 : ℕ) : ℤ) - digits n.natAbs + prec + 1 = shift
  have hquotient : 10 ^ (prec + 1) ≤ n.natAbs * 10 ^ shift.toNat / (10 ^ k * 10 ^ (-shift).toNat) := by
    rw [Nat.le_div_iff_mul_le (by positivity)]
    have hle : 10 ^ (digits n.natAbs - 1) ≤ n.natAbs := DecimalContext.pow_digits_le hn
    calc 10 ^ (prec + 1) * (10 ^ k * 10 ^ (-shift).toNat) = 10 ^ (digits n.natAbs - 1) * 10 ^ shift.toNat := by
          rw [← Nat.pow_add, ← Nat.pow_add, ← Nat.pow_add]
          congr 1
          omega
      _ ≤ n.natAbs * 10 ^ shift.toNat := Nat.mul_le_mul_right _ hle
  have hexp : (ofInt n).exp - (ofInt (10 ^ k)).exp - shift = -shift := by simp [ofInt]
  rw [hexp]
  generalize n.natAbs * 10 ^ shift.toNat / (10 ^ k * 10 ^ (-shift).toNat) = quotient at hquotient ⊢
  have hlong := lt_digits_of_le hquotient
  have hnonzero : 0 < quotient := lt_of_lt_of_le (by positivity) hquotient
  split
  · obtain ⟨j, -, hstrip, hdvd, -⟩ := stripZeros_eq shift.toNat quotient (-shift)
    have hdropped := le_digits_div hnonzero.ne' j
    have hrest : quotient / 10 ^ j ≠ 0 := (Nat.div_pos (Nat.le_of_dvd hnonzero hdvd) (by positivity)).ne'
    refine ⟨_, rfl, ?_⟩
    rw [hstrip]
    exact top_le_fix_withSign hprec _ hrest (by omega)
  · have hsticky : quotient ≤ if quotient % 5 = 0 then quotient + 1 else quotient := by
      split <;> omega
    refine ⟨_, rfl, ?_⟩
    have hmono := digits_mono hsticky
    exact top_le_fix_withSign hprec _ (by omega) (by omega)

/-- An integer that fits the precision, divided by a power of ten and rounded to as many places, keeps its digits. -/
theorem div_quantize_fits {prec : ℕ} (hprec : 0 < prec) (k : ℕ) {n : ℤ} (h : n.natAbs < 10 ^ prec) :
    ∃ d, div prec (ofInt n) (ofInt (10 ^ k)) = some d ∧ d.top ≤ prec ∧ quantize prec (-k) d = some ⟨n, -k⟩ := by
  obtain ⟨j, hj, d, hdiv, hcoeff, hexp⟩ := div_pow hprec k (a := ofInt n) h
  have hplace : d.exp - -(k : ℤ) = j := by
    rw [hexp, ofInt]
    ring
  have habs : d.coeff.natAbs * 10 ^ j = n.natAbs := by
    have hcast := congrArg Int.natAbs hcoeff
    rwa [Int.natAbs_mul, Int.natAbs_pow] at hcast
  have hmagnitude : (if -(k : ℤ) ≤ d.exp then d.coeff.natAbs * 10 ^ (d.exp - -(k : ℤ)).toNat
      else dropHalfEven d.coeff.natAbs (-(k : ℤ) - d.exp).toNat) = n.natAbs := by
    rw [if_pos (by omega), hplace, Int.toNat_natCast, habs]
  have hsigned : withSign d.coeff n.natAbs = n := by
    have hscaled := withSign_mul d.coeff d.coeff.natAbs (10 ^ j)
    rw [habs, withSign_natAbs] at hscaled
    rw [← hscaled]
    exact_mod_cast hcoeff
  refine ⟨d, hdiv, ?_, ?_⟩
  · have hfewer : d.coeff.natAbs < 10 ^ prec := by
      refine lt_of_le_of_lt ?_ h
      calc d.coeff.natAbs ≤ d.coeff.natAbs * 10 ^ j := Nat.le_mul_of_pos_right _ (by positivity)
        _ = n.natAbs := habs
    have hdigits := (digits_le_iff hprec).mpr hfewer
    rw [top]
    omega
  · simp only [quantize, hmagnitude]
    rw [if_pos ((digits_le_iff hprec).mpr h), hsigned]

/-- An integer that does not fit the precision is refused. -/
theorem div_quantize_large {prec : ℕ} (hprec : 0 < prec) (k : ℕ) {n : ℤ} (h : 10 ^ prec ≤ n.natAbs) :
    ∃ d, div prec (ofInt n) (ofInt (10 ^ k)) = some d ∧ quantize prec (-k) d = none := by
  obtain ⟨d, hdiv, hcoeff, htop⟩ := lt_top_div hprec k h
  exact ⟨d, hdiv, quantize_eq_none hcoeff (by omega)⟩

end TaxStamp.Lib.Decimal
