import TaxStamp.Money
import TaxStamp.Lib.DecimalExact

/-!
# Value added tax is exact

The tax on an amount is a product, a quotient by ten thousand and a rounding, in a context
of 28 digits. An amount below `2 ^ 63` and a rate of at most ten thousand basis points keep
the product and the quotient within the precision, so that the final rounding, half away
from zero, is the only one. The price of an order is then always consistent.
-/

namespace TaxStamp

open Lib

/-- The portion of an amount is the exact quotient, rounded once. -/
theorem Money.applyBps_eq (a : Money) {basisPoints : ℤ} (hamount : a.minor.natAbs < 2 ^ 63) (hbps : 0 ≤ basisPoints)
    (hrate : basisPoints ≤ 10000) :
    a.applyBps basisPoints = .ok ⟨Decimal.withSign (a.minor * basisPoints)
      ((2 * (a.minor * basisPoints).natAbs + 10000) / 20000), a.currency, a.supported⟩ := by
  have hfits : (a.minor * basisPoints).natAbs < 10 ^ decimalPrecision := by
    rw [Int.natAbs_mul]
    calc a.minor.natAbs * basisPoints.natAbs ≤ 2 ^ 63 * 10000 := Nat.mul_le_mul hamount.le (by omega)
      _ < 10 ^ decimalPrecision := by decide
  have hproduct : Decimal.mul decimalPrecision (Decimal.ofInt a.minor) (Decimal.ofInt basisPoints) =
      Decimal.ofInt (a.minor * basisPoints) := Decimal.fix_exact (by decide) hfits
  have hportion := Decimal.div_quantize (show 0 < decimalPrecision by decide) 4 hfits
  rw [Money.applyBps, if_neg (by omega)]
  dsimp only
  rw [hproduct, show (10000 : ℤ) = 10 ^ 4 from rfl, hportion]
  rfl

/-- Half of the divisor added before the division rounds to the nearest integer, half away from zero. -/
theorem isNearestHalfAway_withSign (n : ℤ) :
    IsNearestHalfAway ((n : ℚ) / 10000) (Decimal.withSign n ((2 * n.natAbs + 10000) / 20000)) := by
  obtain ⟨q, hq⟩ : ∃ q, q = (2 * n.natAbs + 10000) / 20000 := ⟨_, rfl⟩
  have hlow : 20000 * (q : ℚ) ≤ 2 * (n.natAbs : ℚ) + 10000 := by exact_mod_cast (show 20000 * q ≤ 2 * n.natAbs + 10000 by omega)
  have hhigh : 2 * (n.natAbs : ℚ) + 10000 < 20000 * (q : ℚ) + 20000 := by
    exact_mod_cast (show 2 * n.natAbs + 10000 < 20000 * q + 20000 by omega)
  have hq0 : (0 : ℚ) ≤ q := Nat.cast_nonneg q
  rw [← hq, IsNearestHalfAway, Decimal.withSign]
  split
  · rename_i hsign
    have hn : (n.natAbs : ℚ) = -n := by rw [Nat.cast_natAbs, abs_of_neg hsign, Int.cast_neg]
    have hnonpos : (n : ℚ) / 10000 ≤ 0 := by
      have hneg : (n : ℚ) < 0 := by exact_mod_cast hsign
      linarith
    rw [hn] at hlow hhigh
    push_cast
    rw [abs_of_nonpos hnonpos, abs_neg, abs_of_nonneg hq0]
    refine ⟨abs_le.mpr ⟨by linarith, by linarith⟩, fun htie => ?_⟩
    rcases abs_eq (by norm_num : (0 : ℚ) ≤ 1 / 2) |>.mp htie with htie | htie <;> linarith
  · rename_i hsign
    have hn : (n.natAbs : ℚ) = n := by rw [Nat.cast_natAbs, abs_of_nonneg (not_lt.mp hsign)]
    have hnonneg : 0 ≤ (n : ℚ) / 10000 := by
      have hpos : (0 : ℚ) ≤ n := by exact_mod_cast not_lt.mp hsign
      linarith
    rw [hn] at hlow hhigh
    push_cast
    rw [abs_of_nonneg hnonneg, abs_of_nonneg hq0]
    refine ⟨abs_le.mpr ⟨by linarith, by linarith⟩, fun htie => ?_⟩
    rcases abs_eq (by norm_num : (0 : ℚ) ≤ 1 / 2) |>.mp htie with htie | htie <;> linarith

/-- An order in the range is priced: the subtotal is taxed with one rounding and the total adds up. -/
theorem priceOrder_eq {quantity vatBps : ℤ} {unitPrice : Money} (hquantity : 0 < quantity) (hprice : 0 < unitPrice.minor)
    (hbps : 0 ≤ vatBps) (hrate : vatBps ≤ 10000) (hsubtotal : unitPrice.minor * quantity < 2 ^ 63) :
    priceOrder quantity unitPrice vatBps = .ok
      ⟨quantity, unitPrice, ⟨unitPrice.minor * quantity, unitPrice.currency, unitPrice.supported⟩, vatBps,
        ⟨(2 * (unitPrice.minor * quantity) * vatBps + 10000) / 20000, unitPrice.currency, unitPrice.supported⟩,
        ⟨unitPrice.minor * quantity + (2 * (unitPrice.minor * quantity) * vatBps + 10000) / 20000, unitPrice.currency,
          unitPrice.supported⟩⟩ := by
  have hpositive : 0 < unitPrice.minor * quantity := mul_pos hprice hquantity
  have htimes : unitPrice.times quantity =
      .ok ⟨unitPrice.minor * quantity, unitPrice.currency, unitPrice.supported⟩ := by
    rw [Money.times, if_neg (by omega)]
  have hvat : Money.applyBps ⟨unitPrice.minor * quantity, unitPrice.currency, unitPrice.supported⟩ vatBps =
      .ok ⟨(2 * (unitPrice.minor * quantity) * vatBps + 10000) / 20000, unitPrice.currency, unitPrice.supported⟩ := by
    rw [Money.applyBps_eq _ (by dsimp only; omega) hbps hrate]
    have hproduct : 0 ≤ unitPrice.minor * quantity * vatBps := mul_nonneg hpositive.le hbps
    have hround : Decimal.withSign (unitPrice.minor * quantity * vatBps)
        ((2 * (unitPrice.minor * quantity * vatBps).natAbs + 10000) / 20000) =
        (2 * (unitPrice.minor * quantity) * vatBps + 10000) / 20000 := by
      rw [Decimal.withSign, if_neg (by omega), mul_assoc 2]
      omega
    simp only [hround]
  simp only [priceOrder, if_neg (show ¬quantity ≤ 0 by omega), if_neg (show ¬unitPrice.minor ≤ 0 by omega), htimes, hvat,
    Money.add, PriceBreakdown.assertConsistent, bind, Except.bind, pure, Except.pure, if_true, ne_eq, not_true_eq_false,
    if_false]

/-- Value added tax is exact. For every amount below `2 ^ 63` in size and every rate from zero to ten thousand basis
points, the portion is the one nearest integer to the exact quotient, half away from zero; and every order of a positive
quantity at a positive price whose subtotal fits its column is priced, with the tax rounded half up and the total the
sum. -/
theorem applyBps_priceOrder_exact :
    (∀ (a : Money) (basisPoints : ℤ), |a.minor| < 2 ^ 63 → 0 ≤ basisPoints → basisPoints ≤ 10000 →
      ∃ portion, a.applyBps basisPoints = .ok portion ∧ portion.currency = a.currency ∧
        ∀ r, IsNearestHalfAway ((a.minor : ℚ) * basisPoints / 10000) r ↔ r = portion.minor) ∧
    (∀ (quantity : ℤ) (unitPrice : Money) (vatBps : ℤ), 0 < quantity → 0 < unitPrice.minor → 0 ≤ vatBps → vatBps ≤ 10000 →
      unitPrice.minor * quantity < 2 ^ 63 →
      ∃ breakdown, priceOrder quantity unitPrice vatBps = .ok breakdown ∧
        breakdown.subtotal.minor = unitPrice.minor * quantity ∧
        breakdown.vat.minor = (2 * breakdown.subtotal.minor * vatBps + 10000) / 20000 ∧
        breakdown.total.minor = breakdown.subtotal.minor + breakdown.vat.minor) := by
  constructor
  · intro a basisPoints hamount hbps hrate
    refine ⟨_, a.applyBps_eq (by rw [Int.abs_eq_natAbs] at hamount; exact_mod_cast hamount) hbps hrate, rfl, fun r => ?_⟩
    have hnearest := isNearestHalfAway_withSign (a.minor * basisPoints)
    rw [Int.cast_mul] at hnearest
    exact ⟨fun hr => hr.unique hnearest, fun hr => hr ▸ hnearest⟩
  · intro quantity unitPrice vatBps hquantity hprice hbps hrate hsubtotal
    exact ⟨_, priceOrder_eq hquantity hprice hbps hrate hsubtotal, rfl, rfl, rfl⟩

/-- The tax on a negative amount with a tie, and an order priced at a rate with a tie. -/
theorem applyBps_priceOrder_exact_sample :
    Money.applyBps ⟨-1, "NGN", rfl⟩ 5000 = .ok ⟨-1, "NGN", rfl⟩ ∧
      ∃ breakdown, priceOrder 3 ⟨1250, "NGN", rfl⟩ 9998 = .ok breakdown ∧ breakdown.vat.minor = 3749 := by
  obtain ⟨portion, hportion, hcurrency, hnearest⟩ := applyBps_priceOrder_exact.1 ⟨-1, "NGN", rfl⟩ 5000 (by decide)
    (by decide) (by decide)
  obtain ⟨breakdown, hbreakdown, hsubtotal, hvat, -⟩ := applyBps_priceOrder_exact.2 3 ⟨1250, "NGN", rfl⟩ 9998 (by decide)
    (by decide) (by decide) (by decide) (by decide)
  have hminor : -1 = portion.minor := (hnearest (-1)).mp (by norm_num [IsNearestHalfAway])
  refine ⟨?_, breakdown, hbreakdown, ?_⟩
  · rw [hportion]
    obtain ⟨minor, currency, supported⟩ := portion
    subst hminor hcurrency
    rfl
  · rw [hvat, hsubtotal]
    rfl

end TaxStamp
