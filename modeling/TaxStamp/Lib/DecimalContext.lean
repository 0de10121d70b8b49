import TaxStamp.Lib.DecimalExact
import TaxStamp.Lib.DecimalText
import Mathlib.Algebra.Order.Ring.Abs
import Mathlib.Algebra.Order.Field.Power

/-!
# Decimal numbers in a context

A context limits the precision and the exponents of results. A result is rounded, half to
even, to the unit of its last digit: the position of the last digit the precision keeps, or
the smallest exponent for tiny results. Too large results signal an overflow. The lemmas
relate the rounded number to the exact one by its distance: which numbers overflow, which
are left as they are, and which are rounded to an integer.
-/

namespace TaxStamp.Lib

open Decimal

/-- A precision and a largest exponent; exponents are limited symmetrically. -/
structure DecimalContext where
  prec : ℕ
  emax : ℕ
  prec_pos : 0 < prec

/-- The trapped conditions. -/
inductive DecimalSignal
  | invalidOperation
  | overflow
  deriving DecidableEq, Repr

namespace DecimalContext

variable (ctx : DecimalContext)

/-- The exponent of the smallest number. -/
def etiny : ℤ := -ctx.emax - ctx.prec + 1

/-- The largest exponent of a coefficient of full precision. -/
def etop : ℤ := ctx.emax - ctx.prec + 1

/-- The exponent of the last digit that a result keeps. -/
def unitExponent (coeff : ℕ) (exp : ℤ) : ℤ := max (digits coeff + exp - ctx.prec) ctx.etiny

/-- Round a finite result to the context. -/
def fix (negative : Bool) (coeff : ℕ) (exp : ℤ) : Except DecimalSignal DecimalNumber :=
  let least := ctx.unitExponent coeff exp
  if coeff = 0 then .ok (.finite negative 0 (min (max exp ctx.etiny) ctx.emax))
  else if ctx.etop < digits coeff + exp - ctx.prec then .error .overflow
  else if exp < least then
    let rounded := dropHalfEven coeff (least - exp).toNat
    if digits rounded ≤ ctx.prec then .ok (.finite negative rounded least)
    else if ctx.etop < least + 1 then .error .overflow
    else .ok (.finite negative (rounded / 10) (least + 1))
  else .ok (.finite negative coeff exp)

/-- Move the decimal point; a signaling NaN and a too large move are invalid. -/
def scaleb (d : DecimalNumber) (places : ℤ) : Except DecimalSignal DecimalNumber :=
  match d with
  | .nan true _ _ => .error .invalidOperation
  | .nan false negative payload => .ok (.nan false negative (payload % 10 ^ ctx.prec))
  | .infinite negative =>
    if 2 * (ctx.emax + ctx.prec) < places.natAbs then .error .invalidOperation else .ok (.infinite negative)
  | .finite negative coeff exp =>
    if 2 * (ctx.emax + ctx.prec) < places.natAbs then .error .invalidOperation else ctx.fix negative coeff (exp + places)

end DecimalContext

namespace DecimalNumber

/-- Round to an integer, half to even, without regard to the precision. -/
def toIntegralValue : DecimalNumber → DecimalNumber
  | finite negative coeff exp =>
    if 0 ≤ exp then finite negative coeff exp else finite negative (dropHalfEven coeff (-exp).toNat) 0
  | d => d

/-- The coefficient with its sign. -/
def signed (negative : Bool) (coeff : ℕ) : ℤ := if negative then -(coeff : ℤ) else coeff

/-- Numeric equality; a NaN equals nothing. -/
def numEq : DecimalNumber → DecimalNumber → Bool
  | finite negative coeff exp, finite negative' coeff' exp' =>
    signed negative coeff * 10 ^ (exp - min exp exp').toNat = signed negative' coeff' * 10 ^ (exp' - min exp exp').toNat
  | infinite negative, infinite negative' => negative = negative'
  | _, _ => false

/-- The integer part of a finite number. -/
def truncate (negative : Bool) (coeff : ℕ) (exp : ℤ) : ℤ :=
  signed negative (if 0 ≤ exp then coeff * 10 ^ exp.toNat else coeff / 10 ^ (-exp).toNat)

/-- The value of a finite number. -/
def value (negative : Bool) (coeff : ℕ) (exp : ℤ) : ℚ := signed negative coeff * 10 ^ exp

end DecimalNumber

/-! ### Rounding half to even -/

/-- The rounded quotient is nearest, and even when two are. -/
theorem Decimal.dropHalfEven_nearest (n drop : ℕ) :
    2 * n ≤ 2 * (dropHalfEven n drop * 10 ^ drop) + 10 ^ drop ∧ 2 * (dropHalfEven n drop * 10 ^ drop) ≤ 2 * n + 10 ^ drop ∧
      (2 * n = 2 * (dropHalfEven n drop * 10 ^ drop) + 10 ^ drop ∨
        2 * (dropHalfEven n drop * 10 ^ drop) = 2 * n + 10 ^ drop → dropHalfEven n drop % 2 = 0) := by
  have hpos : 0 < 10 ^ drop := by positivity
  have hmod := Nat.mod_lt n hpos
  have hdiv := Nat.div_add_mod n (10 ^ drop)
  rw [Nat.mul_comm] at hdiv
  unfold dropHalfEven
  dsimp only
  generalize n / 10 ^ drop = q at *
  generalize n % 10 ^ drop = r at *
  generalize 10 ^ drop = m at *
  split
  · rename_i hup
    rw [Nat.add_mul]
    refine ⟨by omega, by omega, fun htie => ?_⟩
    omega
  · rename_i hdown
    refine ⟨by omega, by omega, fun htie => ?_⟩
    omega

/-- An even number within half a unit is the rounded quotient. -/
theorem Decimal.dropHalfEven_eq {n drop : ℕ} {k : ℤ} (heven : k % 2 = 0) (hlow : 2 * (n : ℤ) ≤ 2 * (k * 10 ^ drop) + 10 ^ drop)
    (hhigh : 2 * (k * 10 ^ drop) ≤ 2 * (n : ℤ) + 10 ^ drop) : (dropHalfEven n drop : ℤ) = k := by
  obtain ⟨hlow', hhigh', htie⟩ := dropHalfEven_nearest n drop
  have hpos : (0 : ℤ) < 10 ^ drop := by positivity
  generalize dropHalfEven n drop = q at *
  zify at hlow' hhigh' htie
  generalize (10 : ℤ) ^ drop = m at *
  have hup : (q - k) * m ≤ 1 * m := by linarith
  have hdown : -1 * m ≤ (q - k) * m := by linarith
  have hle := le_of_mul_le_mul_right hup hpos
  have hge := le_of_mul_le_mul_right hdown hpos
  rcases (by omega : (q : ℤ) - k = 0 ∨ (q : ℤ) - k = 1 ∨ (q : ℤ) - k = -1) with hdiff | hdiff | hdiff
  · omega
  · -- both are half a unit away, and both would be even
    have hq : (q : ℤ) = k + 1 := by omega
    rw [hq] at htie hlow' hhigh'
    have := htie (.inr (by linarith))
    omega
  · have hq : (q : ℤ) = k - 1 := by omega
    rw [hq] at htie hlow' hhigh'
    have := htie (.inl (by linarith))
    omega

/-! ### The rounded number -/

namespace DecimalContext

variable {ctx : DecimalContext} {coeff : ℕ} {exp : ℤ}

/-- A coefficient is below its power of ten. -/
theorem lt_pow_digits (n : ℕ) : n < 10 ^ digits n := (digits_le_iff Nat.length_toDigits_pos).mp le_rfl

/-- A coefficient other than zero is at least the power of ten of its first digit. -/
theorem pow_digits_le {n : ℕ} (hn : n ≠ 0) : 10 ^ (digits n - 1) ≤ n := by
  by_contra hlt
  rcases Nat.lt_or_ge 1 (digits n) with hmany | hone
  · have hle := (digits_le_iff (by omega)).mpr (not_le.mp hlt)
    omega
  · rw [show digits n - 1 = 0 by omega] at hlt
    omega

/-- Powers of ten as rational numbers: an exponent is taken up into the coefficient. -/
theorem ten_zpow_sub {low high : ℤ} (h : low ≤ high) : (10 : ℚ) ^ high = (10 ^ (high - low).toNat : ℕ) * (10 : ℚ) ^ low := by
  rw [Nat.cast_pow, Nat.cast_ofNat, ← zpow_natCast, ← zpow_add₀ (by norm_num)]
  congr 1
  omega

/-- A power of ten as a coefficient. -/
theorem ten_pow_mul (k : ℕ) (e : ℤ) : ((10 ^ k : ℕ) : ℚ) * (10 : ℚ) ^ e = (10 : ℚ) ^ (k + e) := by
  rw [Nat.cast_pow, Nat.cast_ofNat, ← zpow_natCast, ← zpow_add₀ (by norm_num)]

/-- Powers of ten are in the order of their exponents. -/
theorem ten_zpow_mono {low high : ℤ} (h : low ≤ high) : (10 : ℚ) ^ low ≤ (10 : ℚ) ^ high :=
  zpow_le_zpow_right₀ (by norm_num) h

/-- The unit of a result that does not overflow is at most that of the largest numbers. -/
theorem unitExponent_le (h : ¬ctx.etop < digits coeff + exp - ctx.prec) : ctx.unitExponent coeff exp ≤ ctx.etop := by
  refine max_le (not_lt.mp h) ?_
  unfold etiny etop
  omega

/-- Rounding keeps the digits within the precision, but for a carry into the next digit. -/
theorem rounded_le (h : exp < ctx.unitExponent coeff exp) :
    dropHalfEven coeff (ctx.unitExponent coeff exp - exp).toNat ≤ 10 ^ ctx.prec := by
  obtain ⟨drop, hdrop⟩ : ∃ drop, drop = (ctx.unitExponent coeff exp - exp).toNat := ⟨_, rfl⟩
  have hle : digits coeff ≤ ctx.prec + drop := by
    have hunit := le_max_left (digits coeff + exp - ctx.prec : ℤ) ctx.etiny
    rw [← unitExponent] at hunit
    omega
  have hlt : coeff < 10 ^ ctx.prec * 10 ^ drop := by
    rw [← Nat.pow_add]
    exact lt_of_lt_of_le (lt_pow_digits coeff) (Nat.pow_le_pow_right (by decide) hle)
  have hquotient : coeff / 10 ^ drop < 10 ^ ctx.prec := (Nat.div_lt_iff_lt_mul (by positivity)).mpr hlt
  rw [← hdrop, dropHalfEven]
  split <;> omega

/-- A number that is rounded is within half a unit of the result, and below it exactly by half a unit only when the
result is even. -/
theorem rounded_near (h : exp < ctx.unitExponent coeff exp) :
    let rounded := dropHalfEven coeff (ctx.unitExponent coeff exp - exp).toNat
    let unit := (10 : ℚ) ^ ctx.unitExponent coeff exp
    2 * (coeff * (10 : ℚ) ^ exp) ≤ 2 * (rounded * unit) + unit ∧ 2 * (rounded * unit) ≤ 2 * (coeff * (10 : ℚ) ^ exp) + unit ∧
      (2 * (coeff * (10 : ℚ) ^ exp) = 2 * (rounded * unit) + unit → rounded % 2 = 0) := by
  intro rounded unit
  obtain ⟨hlow, hhigh, htie⟩ := dropHalfEven_nearest coeff (ctx.unitExponent coeff exp - exp).toNat
  have hunit : unit = (10 ^ (ctx.unitExponent coeff exp - exp).toNat : ℕ) * (10 : ℚ) ^ exp := ten_zpow_sub h.le
  have hpos : (0 : ℚ) < 10 ^ exp := by positivity
  rw [hunit]
  generalize (10 : ℚ) ^ exp = ten at *
  generalize 10 ^ (ctx.unitExponent coeff exp - exp).toNat = m at *
  refine ⟨?_, ?_, fun heq => htie (.inl ?_)⟩
  · have hcast : (2 * coeff : ℚ) ≤ 2 * (rounded * m) + m := by exact_mod_cast hlow
    nlinarith
  · have hcast : (2 * (rounded * m) : ℚ) ≤ 2 * coeff + m := by exact_mod_cast hhigh
    nlinarith
  · have hcast : (2 * coeff : ℚ) * ten = (2 * (rounded * m) + m) * ten := by linarith
    exact_mod_cast mul_right_cancel₀ hpos.ne' hcast

/-- A carry into the next digit leaves a power of ten. -/
theorem rounded_eq_pow (h : exp < ctx.unitExponent coeff exp)
    (hcarry : ¬digits (dropHalfEven coeff (ctx.unitExponent coeff exp - exp).toNat) ≤ ctx.prec) :
    dropHalfEven coeff (ctx.unitExponent coeff exp - exp).toNat = 10 ^ ctx.prec :=
  le_antisymm (rounded_le h) (not_lt.mp fun hlt => hcarry ((digits_le_iff ctx.prec_pos).mpr hlt))

/-- A nonzero result is an overflow exactly when it is at most half a unit below the next power of ten after the largest
exponent; otherwise it is the number itself when no digit is dropped, and the rounded one when some are. -/
theorem fix_cases (ctx : DecimalContext) (negative : Bool) {coeff : ℕ} (exp : ℤ) (hcoeff : coeff ≠ 0) :
    let least := ctx.unitExponent coeff exp
    let limit := (10 : ℚ) ^ (ctx.emax + 1 : ℤ)
    (ctx.fix negative coeff exp = .error .overflow ∧ 2 * limit ≤ 2 * (coeff * (10 : ℚ) ^ exp) + (10 : ℚ) ^ least) ∨
      ∃ c e, ctx.fix negative coeff exp = .ok (.finite negative c e) ∧
        2 * (coeff * (10 : ℚ) ^ exp) + (10 : ℚ) ^ least < 2 * limit ∧
        (least ≤ exp ∧ c = coeff ∧ e = exp ∨
          exp < least ∧ c * (10 : ℚ) ^ e = dropHalfEven coeff (least - exp).toNat * (10 : ℚ) ^ least) := by
  intro least limit
  have hlow : ((10 ^ (digits coeff - 1) : ℕ) : ℚ) ≤ coeff := by exact_mod_cast pow_digits_le hcoeff
  have hhigh : (coeff : ℚ) + 1 ≤ (10 ^ digits coeff : ℕ) := by exact_mod_cast lt_pow_digits coeff
  have hdigits : 0 < digits coeff := Nat.length_toDigits_pos
  have hten : (0 : ℚ) < 10 ^ exp := by positivity
  have hunit : (0 : ℚ) < 10 ^ least := by positivity
  have hetop : ctx.etop = ctx.emax - ctx.prec + 1 := rfl
  unfold fix
  dsimp only
  rw [if_neg hcoeff]
  by_cases hover : ctx.etop < digits coeff + exp - ctx.prec
  · -- the first digit is beyond the largest exponent
    have hfirst := ten_pow_mul (digits coeff - 1) exp
    have hlimit : limit ≤ (10 : ℚ) ^ ((digits coeff - 1 : ℕ) + exp) := ten_zpow_mono (by omega)
    have hbelow := mul_le_mul_of_nonneg_right hlow hten.le
    rw [if_pos hover]
    exact .inl ⟨rfl, by linarith⟩
  have hleast : least ≤ ctx.etop := unitExponent_le hover
  rw [if_neg hover]
  by_cases hround : exp < least
  · rw [if_pos hround]
    obtain ⟨hnear, hnear', htie⟩ := rounded_near hround
    rw [show ctx.unitExponent coeff exp = least from rfl] at hnear hnear' htie
    have hfull := ten_pow_mul ctx.prec least
    by_cases hfits : digits (dropHalfEven coeff (least - exp).toNat) ≤ ctx.prec
    · rw [if_pos hfits]
      refine .inr ⟨_, _, rfl, ?_, .inr ⟨hround, rfl⟩⟩
      have hlimit : (10 : ℚ) ^ (ctx.prec + least) ≤ limit := ten_zpow_mono (by omega)
      have hbelow := (digits_le_iff ctx.prec_pos).mp hfits
      have hcast : ((dropHalfEven coeff (least - exp).toNat : ℚ) + 1) * (10 : ℚ) ^ least ≤
          (10 ^ ctx.prec : ℕ) * (10 : ℚ) ^ least := by
        apply mul_le_mul_of_nonneg_right _ hunit.le
        exact_mod_cast hbelow
      refine lt_of_le_of_ne (by linarith) fun heq => ?_
      -- half a unit below the limit is a tie with an odd number below, which is rounded up
      have heven := htie (by linarith)
      have hsame : ((dropHalfEven coeff (least - exp).toNat : ℚ) + 1) * (10 : ℚ) ^ least =
          (10 ^ ctx.prec : ℕ) * (10 : ℚ) ^ least := by linarith
      have hodd : dropHalfEven coeff (least - exp).toNat + 1 = 10 ^ ctx.prec := by
        exact_mod_cast mul_right_cancel₀ hunit.ne' hsame
      have hten : 10 ^ ctx.prec % 2 = 0 := by
        rw [← Nat.succ_pred_eq_of_pos ctx.prec_pos, Nat.pow_succ]
        omega
      omega
    · rw [if_neg hfits]
      have hpow : dropHalfEven coeff (least - exp).toNat = 10 ^ ctx.prec := rounded_eq_pow hround hfits
      rw [hpow] at hnear hnear'
      by_cases htop : ctx.etop < least + 1
      · have hlimit : limit = (10 : ℚ) ^ (ctx.prec + least) := by
          rw [show (ctx.prec + least : ℤ) = ctx.emax + 1 by omega]
        rw [if_pos htop]
        exact .inl ⟨rfl, by linarith⟩
      · rw [if_neg htop]
        have hlimit : (10 : ℚ) ^ ((ctx.prec + 1 : ℕ) + least) ≤ limit := ten_zpow_mono (by push_cast; omega)
        have hnext := ten_pow_mul (ctx.prec + 1) least
        have hone : (1 : ℚ) ≤ (10 ^ ctx.prec : ℕ) := by exact_mod_cast Nat.one_le_pow _ _ (by decide)
        have hunits := mul_le_mul_of_nonneg_right hone hunit.le
        refine .inr ⟨_, _, rfl, ?_, .inr ⟨hround, ?_⟩⟩
        · rw [Nat.pow_succ, Nat.cast_mul, Nat.cast_ofNat] at hnext
          linarith
        · rw [hpow, ← Nat.succ_pred_eq_of_pos ctx.prec_pos, Nat.pow_succ, Nat.mul_div_cancel _ (by decide), zpow_add_one₀ (by norm_num)]
          push_cast
          ring
  · have hlast : (10 : ℚ) ^ least ≤ 10 ^ exp := ten_zpow_mono (not_lt.mp hround)
    have hall := ten_pow_mul (digits coeff) exp
    have hlimit : (10 : ℚ) ^ (digits coeff + exp) ≤ limit := ten_zpow_mono (by omega)
    have hbelow := mul_le_mul_of_nonneg_right hhigh hten.le
    rw [if_neg hround]
    exact .inr ⟨_, _, rfl, by linarith, .inl ⟨not_lt.mp hround, rfl, rfl⟩⟩

/-- Whether a number may pass through the context: rounding to its unit leaves it as it is, or leaves it away from every
integer. -/
def Faithful (ctx : DecimalContext) (coeff : ℕ) (exp : ℤ) : Prop :=
  (∃ k : ℤ, (coeff : ℚ) * 10 ^ exp = k * 10 ^ ctx.unitExponent coeff exp) ∨
    ∀ n : ℤ, (10 : ℚ) ^ ctx.unitExponent coeff exp < 2 * |(coeff : ℚ) * 10 ^ exp - n|

/-- The rounded number is an integer exactly when an integer is within half a unit of the number. -/
theorem rounded_integer_iff (h : exp < ctx.unitExponent coeff exp) :
    (∃ n : ℤ, (dropHalfEven coeff (ctx.unitExponent coeff exp - exp).toNat : ℚ) * 10 ^ ctx.unitExponent coeff exp = n) ↔
      ∃ n : ℤ, 2 * |(coeff : ℚ) * 10 ^ exp - n| ≤ (10 : ℚ) ^ ctx.unitExponent coeff exp := by
  obtain ⟨hnear, hnear', -⟩ := rounded_near h
  have hsplit := ten_zpow_sub h.le
  generalize ctx.unitExponent coeff exp = least at *
  constructor
  · rintro ⟨n, hn⟩
    refine ⟨n, ?_⟩
    rw [← hn, ← le_div_iff₀' (by norm_num), abs_le]
    constructor <;> linarith
  · rintro ⟨n, hn⟩
    rw [← le_div_iff₀' (by norm_num), abs_le] at hn
    rcases le_or_gt 0 least with hwhole | hfraction
    · -- the unit is an integer itself
      refine ⟨dropHalfEven coeff (least - exp).toNat * 10 ^ least.toNat, ?_⟩
      push_cast
      rw [← zpow_natCast, Int.toNat_of_nonneg hwhole]
    · -- an integer is an even multiple of a smaller unit
      have hdrop : (0 : ℚ) < 10 ^ exp := by positivity
      have hten : ((10 ^ (-least).toNat : ℕ) : ℚ) * 10 ^ least = 1 := by
        rw [ten_pow_mul, show (((-least).toNat : ℤ) + least) = 0 by omega, zpow_zero]
      have hmultiple : (n : ℚ) = (n * 10 ^ (-least).toNat : ℤ) * 10 ^ least := by
        push_cast at hten ⊢
        rw [mul_assoc, hten, mul_one]
      have heven : (n * 10 ^ (-least).toNat : ℤ) % 2 = 0 := by
        obtain ⟨k, hk⟩ : ∃ k, (-least).toNat = k + 1 := ⟨(-least).toNat - 1, by omega⟩
        rw [hk, pow_succ, ← mul_assoc]
        omega
      rw [hmultiple, hsplit] at hn
      obtain ⟨hlow, hhigh⟩ := hn
      have hlow' : (2 * coeff : ℚ) ≤ 2 * ((n * 10 ^ (-least).toNat : ℤ) * (10 ^ (least - exp).toNat : ℕ)) +
          (10 ^ (least - exp).toNat : ℕ) := by
        apply le_of_mul_le_mul_right _ hdrop
        linarith
      have hhigh' : (2 * ((n * 10 ^ (-least).toNat : ℤ) * (10 ^ (least - exp).toNat : ℕ)) : ℚ) ≤ 2 * coeff +
          (10 ^ (least - exp).toNat : ℕ) := by
        apply le_of_mul_le_mul_right _ hdrop
        linarith
      have hquotient := dropHalfEven_eq heven (by exact_mod_cast hlow') (by exact_mod_cast hhigh')
      refine ⟨n, ?_⟩
      rw [hmultiple, ← hquotient, Int.cast_natCast]

/-- A rounded number is left as it is exactly when it is a multiple of its unit. -/
theorem rounded_eq_iff (h : exp < ctx.unitExponent coeff exp) :
    (dropHalfEven coeff (ctx.unitExponent coeff exp - exp).toNat : ℚ) * 10 ^ ctx.unitExponent coeff exp = coeff * 10 ^ exp ↔
      ∃ k : ℤ, (coeff : ℚ) * 10 ^ exp = k * 10 ^ ctx.unitExponent coeff exp := by
  constructor
  · exact fun heq => ⟨dropHalfEven coeff (ctx.unitExponent coeff exp - exp).toNat, by rw [← heq, Int.cast_natCast]⟩
  · rintro ⟨k, hk⟩
    obtain ⟨hnear, hnear', -⟩ := rounded_near h
    have hunit : (0 : ℚ) < 10 ^ ctx.unitExponent coeff exp := by positivity
    rw [hk] at hnear hnear' ⊢
    generalize dropHalfEven coeff (ctx.unitExponent coeff exp - exp).toNat = rounded at *
    have hlow : (2 * k : ℚ) ≤ 2 * rounded + 1 := by
      apply le_of_mul_le_mul_right _ hunit
      linarith
    have hhigh : (2 * rounded : ℚ) ≤ 2 * k + 1 := by
      apply le_of_mul_le_mul_right _ hunit
      linarith
    have hsame : (rounded : ℤ) = k := by
      have hlow' : 2 * k ≤ 2 * (rounded : ℤ) + 1 := by exact_mod_cast hlow
      have hhigh' : 2 * (rounded : ℤ) ≤ 2 * k + 1 := by exact_mod_cast hhigh
      omega
    rw [← hsame, Int.cast_natCast]

/-- A nonzero number comes out of the context as it is exactly when it is a multiple of its unit, and as an integer
otherwise exactly when one is within half a unit. -/
theorem fix_ok (negative : Bool) (hcoeff : coeff ≠ 0) {c : ℕ} {e : ℤ}
    (hok : ctx.fix negative coeff exp = .ok (.finite negative c e)) :
    ((c : ℚ) * 10 ^ e = coeff * 10 ^ exp ↔
      ∃ k : ℤ, (coeff : ℚ) * 10 ^ exp = k * 10 ^ ctx.unitExponent coeff exp) ∧
    ((c : ℚ) * 10 ^ e ≠ coeff * 10 ^ exp → ((∃ n : ℤ, (c : ℚ) * 10 ^ e = n) ↔
      ∃ n : ℤ, 2 * |(coeff : ℚ) * 10 ^ exp - n| ≤ (10 : ℚ) ^ ctx.unitExponent coeff exp)) := by
  rcases fix_cases ctx negative exp hcoeff with ⟨herror, -⟩ | ⟨c', e', hok', -, hresult⟩
  · rw [hok] at herror
    cases herror
  simp only [hok, Except.ok.injEq, DecimalNumber.finite.injEq, true_and] at hok'
  obtain ⟨rfl, rfl⟩ := hok'
  rcases hresult with ⟨hleast, rfl, rfl⟩ | ⟨hround, hvalue⟩
  · -- no digit is dropped
    refine ⟨iff_of_true rfl ⟨c * 10 ^ (e - ctx.unitExponent c e).toNat, ?_⟩, fun hne => absurd rfl hne⟩
    rw [ten_zpow_sub hleast]
    push_cast
    ring
  · rw [hvalue]
    exact ⟨rounded_eq_iff hround, fun _ => rounded_integer_iff hround⟩

/-- A number that passes through the context faithfully comes out as it is or as a fraction, and the other numbers come
out as other integers. -/
theorem fix_faithful_iff (negative : Bool) (hcoeff : coeff ≠ 0) {c : ℕ} {e : ℤ}
    (hok : ctx.fix negative coeff exp = .ok (.finite negative c e)) :
    ((c : ℚ) * 10 ^ e = coeff * 10 ^ exp ∨ ¬∃ n : ℤ, (c : ℚ) * 10 ^ e = n) ↔ ctx.Faithful coeff exp := by
  obtain ⟨hexact, hinteger⟩ := fix_ok negative hcoeff hok
  by_cases hsame : (c : ℚ) * 10 ^ e = coeff * 10 ^ exp
  · exact iff_of_true (.inl hsame) (.inl (hexact.mp hsame))
  · rw [Faithful, ← hexact, hinteger hsame]
    push Not
    exact Iff.rfl

/-- An integer comes out as an integer. -/
theorem fix_integer (negative : Bool) (hcoeff : coeff ≠ 0) {c : ℕ} {e : ℤ}
    (hok : ctx.fix negative coeff exp = .ok (.finite negative c e)) {n : ℤ} (hn : (coeff : ℚ) * 10 ^ exp = n) :
    ∃ m : ℤ, (c : ℚ) * 10 ^ e = m := by
  obtain ⟨-, hinteger⟩ := fix_ok negative hcoeff hok
  by_cases hsame : (c : ℚ) * 10 ^ e = coeff * 10 ^ exp
  · exact ⟨n, hsame.trans hn⟩
  · refine (hinteger hsame).mpr ⟨n, ?_⟩
    rw [hn, sub_self, abs_zero, mul_zero]
    positivity

end DecimalContext

/-! ### Integers -/

namespace DecimalNumber

/-- Signed magnitudes are equal only for equal magnitudes. -/
theorem signed_inj {negative : Bool} {a b : ℕ} : signed negative a = signed negative b ↔ a = b := by
  cases negative <;> simp [signed]

/-- A sign can be moved out of a product. -/
theorem signed_mul (negative : Bool) (a b : ℕ) : signed negative a * b = signed negative (a * b) := by
  cases negative <;> simp [signed]

/-- The value of a number is its magnitude with its sign. -/
theorem value_eq (negative : Bool) (coeff : ℕ) (exp : ℤ) :
    value negative coeff exp = if negative then -((coeff : ℚ) * 10 ^ exp) else (coeff : ℚ) * 10 ^ exp := by
  cases negative <;> simp [value, signed]

/-- A number with a negative exponent is an integer exactly when the power of ten divides its coefficient. -/
theorem integer_iff_dvd {coeff : ℕ} {exp : ℤ} (h : exp < 0) :
    (∃ n : ℤ, (coeff : ℚ) * 10 ^ exp = n) ↔ 10 ^ (-exp).toNat ∣ coeff := by
  have hten : ((10 ^ (-exp).toNat : ℕ) : ℚ) * 10 ^ exp = 1 := by
    rw [DecimalContext.ten_pow_mul, show (((-exp).toNat : ℤ) + exp) = 0 by omega, zpow_zero]
  have hpos : (0 : ℚ) < 10 ^ exp := by positivity
  constructor
  · rintro ⟨n, hn⟩
    have hmul : (coeff : ℚ) = n * (10 ^ (-exp).toNat : ℕ) := by
      apply mul_right_cancel₀ hpos.ne'
      rw [mul_assoc, hten, hn, mul_one]
    have hint : (coeff : ℤ) = n * (10 ^ (-exp).toNat : ℕ) := by exact_mod_cast hmul
    exact Int.natCast_dvd_natCast.mp ⟨n, by rw [hint, mul_comm]⟩
  · rintro ⟨k, hk⟩
    refine ⟨k, ?_⟩
    rw [hk, Nat.cast_mul, mul_right_comm, hten, one_mul, Int.cast_natCast]

/-- A finite number equals its rounding to an integer exactly when it is one, and then it is its integer part. -/
theorem numEq_toIntegralValue (negative : Bool) (coeff : ℕ) (exp : ℤ) :
    (numEq (.finite negative coeff exp) (toIntegralValue (.finite negative coeff exp)) = true ↔
      ∃ n : ℤ, (coeff : ℚ) * 10 ^ exp = n) ∧
    ((∃ n : ℤ, (coeff : ℚ) * 10 ^ exp = n) → (truncate negative coeff exp : ℚ) = value negative coeff exp) := by
  rcases le_or_gt 0 exp with hexp | hexp
  · have hpow : ((10 ^ exp.toNat : ℕ) : ℚ) = 10 ^ exp := by
      rw [Nat.cast_pow, Nat.cast_ofNat, ← zpow_natCast, Int.toNat_of_nonneg hexp]
    have hinteger : ∃ n : ℤ, (coeff : ℚ) * 10 ^ exp = n :=
      ⟨(coeff * 10 ^ exp.toNat : ℕ), by rw [Int.cast_natCast, Nat.cast_mul, hpow]⟩
    refine ⟨iff_of_true ?_ hinteger, fun _ => ?_⟩
    · rw [toIntegralValue, if_pos hexp, numEq, decide_eq_true_eq]
    · rw [truncate, if_pos hexp, ← signed_mul, value, Int.cast_mul, Int.cast_natCast, hpow]
  · rw [integer_iff_dvd hexp]
    have hmin : min exp 0 = exp := min_eq_left hexp.le
    constructor
    · rw [toIntegralValue, if_neg (not_le.mpr hexp), numEq, decide_eq_true_eq, hmin, sub_self, zero_sub, Int.toNat_zero,
        pow_zero, mul_one]
      have hcast := signed_mul negative (dropHalfEven coeff (-exp).toNat) (10 ^ (-exp).toNat)
      rw [Nat.cast_pow, Nat.cast_ofNat] at hcast
      rw [hcast, signed_inj]
      refine ⟨fun heq => ⟨_, by rw [Nat.mul_comm]; exact heq⟩, ?_⟩
      rintro ⟨k, hk⟩
      have hzero : coeff % 10 ^ (-exp).toNat = 0 := by rw [hk, Nat.mul_mod_right]
      have hpos : 0 < 10 ^ (-exp).toNat := by positivity
      rw [dropHalfEven, hzero, if_neg (by omega)]
      rw [hk, Nat.mul_div_cancel_left _ hpos, Nat.mul_comm]
    · rintro ⟨k, rfl⟩
      rw [truncate, if_neg (not_le.mpr hexp), Nat.mul_div_cancel_left _ (by positivity), value, Nat.mul_comm, ← signed_mul,
        Int.cast_mul, Int.cast_natCast, mul_assoc, DecimalContext.ten_pow_mul,
        show (((-exp).toNat : ℤ) + exp) = 0 by omega, zpow_zero, mul_one]

end DecimalNumber

end TaxStamp.Lib
