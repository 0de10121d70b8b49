import TaxStamp.Errors
import TaxStamp.Lib.Decimal

/-!
# Exact monetary arithmetic

Amounts are integers in minor units. A `Money` value can only be built in a supported
currency. Rates are in basis points and are applied with decimal arithmetic in the default
context of 28 digits, rounding half away from zero.
-/

namespace TaxStamp

open Lib

/-- The supported currencies with their exponents. -/
def currencyExponents : List (String × ℕ) := [("NGN", 2), ("USD", 2)]

/-- The exponent of a supported currency. -/
def exponentFor (currency : String) : Except Fault ℕ :=
  match currencyExponents.lookup currency with
  | some exponent => .ok exponent
  | none => .error (.moneyError s!"unsupported currency: {pyRepr currency}")

/-- An amount in minor units of a supported currency. -/
structure Money where
  minor : ℤ
  currency : String
  supported : (currencyExponents.lookup currency).isSome = true
  deriving DecidableEq, Repr

/-- The precision of the default decimal context. -/
def decimalPrecision : ℕ := 28

namespace Money

/-- Build an amount, refusing an unsupported currency. -/
def make (minor : ℤ) (currency : String) : Except Fault Money :=
  if h : (currencyExponents.lookup currency).isSome = true then .ok ⟨minor, currency, h⟩
  else .error (.moneyError s!"unsupported currency: {pyRepr currency}")

/-- Amounts add within one currency. -/
def add (a b : Money) : Except Fault Money :=
  if a.currency = b.currency then .ok ⟨a.minor + b.minor, a.currency, a.supported⟩
  else .error (.moneyError s!"currency mismatch: {a.currency} vs {b.currency}")

/-- A multiple of an amount. -/
def times (a : Money) (quantity : ℤ) : Except Fault Money :=
  if quantity < 0 then .error (.moneyError "quantity must not be negative")
  else .ok ⟨a.minor * quantity, a.currency, a.supported⟩

/-- The portion of an amount given by a rate in basis points. -/
def applyBps (a : Money) (basisPoints : ℤ) : Except Fault Money :=
  if basisPoints < 0 then .error (.moneyError "basis points must not be negative")
  else
    let product := Decimal.mul decimalPrecision (Decimal.ofInt a.minor) (Decimal.ofInt basisPoints)
    match (Decimal.div decimalPrecision product (Decimal.ofInt 10000)).bind
        (Decimal.quantizeToInt decimalPrecision) with
    | some portion => .ok ⟨portion, a.currency, a.supported⟩
    | none => .error .invalidOperation

/-- A built amount has the given minor units and currency. -/
theorem make_ok {minor : ℤ} {currency : String} {m : Money} :
    make minor currency = .ok m ↔ m.minor = minor ∧ m.currency = currency := by
  unfold make
  split
  · constructor
    · intro h
      injection h with h
      subst h
      exact ⟨rfl, rfl⟩
    · rintro ⟨rfl, rfl⟩
      rfl
  · rename_i hunsupported
    constructor
    · intro h
      contradiction
    · rintro ⟨-, rfl⟩
      exact absurd m.supported hunsupported

/-- An amount is built exactly in the supported currencies. -/
theorem supported_of_make {minor : ℤ} {currency : String} {m : Money} (h : make minor currency = .ok m) :
    (currencyExponents.lookup currency).isSome = true := by
  rw [← (make_ok.mp h).2]
  exact m.supported

/-- A sum keeps the currency and adds the minor units. -/
theorem add_ok {a b c : Money} (h : a.add b = .ok c) :
    a.currency = b.currency ∧ c.minor = a.minor + b.minor ∧ c.currency = a.currency := by
  unfold add at h
  split at h
  · rename_i hcurrency
    injection h with h
    subst h
    exact ⟨hcurrency, rfl, rfl⟩
  · contradiction

end Money

/-- The server-computed price of an order. -/
structure PriceBreakdown where
  quantity : ℤ
  unitPrice : Money
  subtotal : Money
  vatBps : ℤ
  vat : Money
  total : Money
  deriving DecidableEq, Repr

/-- Recompute the breakdown and refuse any disagreement. -/
def PriceBreakdown.assertConsistent (b : PriceBreakdown) : Except Fault Unit := do
  let expectedSubtotal ← b.unitPrice.times b.quantity
  if expectedSubtotal ≠ b.subtotal then
    .error (.moneyError "subtotal does not equal unit price x quantity")
  let expectedVat ← b.subtotal.applyBps b.vatBps
  if expectedVat ≠ b.vat then .error (.moneyError "VAT does not match the stated basis points")
  let expectedTotal ← b.subtotal.add b.vat
  if expectedTotal ≠ b.total then .error (.moneyError "total does not equal subtotal + VAT")

/-- Price an order from its tariff. -/
def priceOrder (quantity : ℤ) (unitPrice : Money) (vatBps : ℤ) : Except Fault PriceBreakdown := do
  if quantity ≤ 0 then .error (.moneyError "quantity must be positive")
  if unitPrice.minor ≤ 0 then .error (.moneyError "unit price must be positive")
  let subtotal ← unitPrice.times quantity
  let vat ← subtotal.applyBps vatBps
  let total ← subtotal.add vat
  let breakdown : PriceBreakdown := ⟨quantity, unitPrice, subtotal, vatBps, vat, total⟩
  breakdown.assertConsistent
  return breakdown

example : ((Money.make 1250 "NGN").bind fun price => priceOrder 3 price 750).map
    (fun b => (b.subtotal.minor, b.vat.minor, b.total.minor)) = .ok (3750, 281, 4031) := by decide

end TaxStamp
