import Mathlib.Algebra.Order.Ring.Int
import Mathlib.Tactic.Common

/-!
# Decimal arithmetic in a precision-limited context

Finite decimal numbers with the operations of the General Decimal Arithmetic as a
context of `prec` significant digits performs them: results are computed exactly and then
rounded to the context, half to even. Signed zeros are not told apart, and exponents are
unbounded.
-/

namespace TaxStamp.Lib

/-- The number `coeff * 10 ^ exp`. -/
structure Decimal where
  coeff : ℤ
  exp : ℤ
  deriving DecidableEq, Repr

namespace Decimal

/-- The number of decimal digits of a coefficient; zero has one. -/
def digits (n : ℕ) : ℕ := (Nat.toDigits 10 n).length

/-- An integer as a decimal. -/
def ofInt (n : ℤ) : Decimal := ⟨n, 0⟩

/-- Put the sign of `source` on a magnitude. -/
def withSign (source : ℤ) (magnitude : ℕ) : ℤ := if source < 0 then -(magnitude : ℤ) else magnitude

/-- Round a magnitude by dropping digits, half to even. -/
def dropHalfEven (n drop : ℕ) : ℕ :=
  let quotient := n / 10 ^ drop
  let remainder := n % 10 ^ drop
  if 10 ^ drop < 2 * remainder ∨ (2 * remainder = 10 ^ drop ∧ quotient % 2 = 1) then quotient + 1
  else quotient

/-- Round a magnitude by dropping digits, half away from zero. -/
def dropHalfUp (n drop : ℕ) : ℕ :=
  if 10 ^ drop ≤ 2 * (n % 10 ^ drop) then n / 10 ^ drop + 1 else n / 10 ^ drop

/-- Round a result to the context. -/
def fix (prec : ℕ) (d : Decimal) : Decimal :=
  let magnitude := d.coeff.natAbs
  if digits magnitude ≤ prec then d
  else
    let drop := digits magnitude - prec
    let rounded := dropHalfEven magnitude drop
    if digits rounded ≤ prec then ⟨withSign d.coeff rounded, d.exp + drop⟩
    else ⟨withSign d.coeff (rounded / 10), d.exp + drop + 1⟩

/-- Multiplication. -/
def mul (prec : ℕ) (a b : Decimal) : Decimal := fix prec ⟨a.coeff * b.coeff, a.exp + b.exp⟩

/-- Drop trailing zeros of an exact quotient, at most `budget` of them. -/
def stripZeros : ℕ → ℕ → ℤ → ℕ × ℤ
  | 0, n, exp => (n, exp)
  | budget + 1, n, exp => if n % 10 = 0 then stripZeros budget (n / 10) (exp + 1) else (n, exp)

/-- Division; `none` for a zero divisor. An inexact quotient is computed with enough digits
and a sticky last digit, so that rounding it once is correct. -/
def div (prec : ℕ) (a b : Decimal) : Option Decimal :=
  if b.coeff = 0 then none
  else if a.coeff = 0 then some ⟨0, a.exp - b.exp⟩
  else
    let sign := a.coeff * b.coeff
    let shift : ℤ := (digits b.coeff.natAbs : ℤ) - digits a.coeff.natAbs + prec + 1
    let exp := a.exp - b.exp - shift
    let numerator := a.coeff.natAbs * 10 ^ shift.toNat
    let denominator := b.coeff.natAbs * 10 ^ (-shift).toNat
    let quotient := numerator / denominator
    if numerator % denominator = 0 then
      let stripped := stripZeros shift.toNat quotient exp
      some (fix prec ⟨withSign sign stripped.1, stripped.2⟩)
    else
      let sticky := if quotient % 5 = 0 then quotient + 1 else quotient
      some (fix prec ⟨withSign sign sticky, exp⟩)

/-- The nearest integer, half away from zero; `none` when it needs more digits than the
context has. -/
def quantizeToInt (prec : ℕ) (d : Decimal) : Option ℤ :=
  let magnitude := if 0 ≤ d.exp then d.coeff.natAbs * 10 ^ d.exp.toNat
    else dropHalfUp d.coeff.natAbs (-d.exp).toNat
  if digits magnitude ≤ prec then some (withSign d.coeff magnitude) else none

end Decimal

end TaxStamp.Lib
