import TaxStamp.MajorUnits
import TaxStamp.Lib.DecimalPlaces

/-!
# Amounts as text

An amount is shown in major units with the places of its currency: the minor units are
divided by a power of ten in the default context and rounded to the places. The text of an
amount within the precision loses nothing, so that reading its number gives the amount back
and two amounts never show the same text. A larger amount has no text at all; it is refused
rather than shown rounded.
-/

namespace TaxStamp

open Lib

/-- The amount in major units, with the places of its currency. -/
def Money.major (m : Money) : Except Fault Decimal := do
  let exponent ← exponentFor m.currency
  match Decimal.div decimalPrecision (Decimal.ofInt m.minor) (Decimal.ofInt (10 ^ exponent)) with
  | none => .error .invalidOperation
  | some quotient =>
    if defaultContext.emax < quotient.top - 1 then .error .decimalOverflow
    else
      match Decimal.quantize decimalPrecision (-exponent) quotient with
      | some major => .ok major
      | none => .error .invalidOperation

/-- A decimal as its text prints it. -/
def decimalNumber (d : Decimal) : DecimalNumber := .finite (d.coeff < 0) d.coeff.natAbs d.exp

/-- The text of an amount: its number and its currency. -/
def Money.str (m : Money) : Except Fault String := do
  let major ← m.major
  .ok (String.ofList (decimalNumber major).print ++ " " ++ m.currency)

/-- A number with a given number of places after the point, and no exponent. -/
def IsPlain (negative : Bool) (places : ℕ) (text : List Char) : Prop :=
  ∃ whole fraction, text = DecimalNumber.signText negative ++ whole ++ '.' :: fraction ∧ whole ≠ [] ∧
    (∀ c ∈ whole ++ fraction, c.isDigit = true) ∧ fraction.length = places

/-- A number with a few places is printed plainly. -/
theorem print_plain (negative : Bool) (coeff : ℕ) {places : ℕ} (hsome : 0 < places) (hfew : places ≤ 6) :
    IsPlain negative places (DecimalNumber.finite negative coeff (-places)).print := by
  have hfirst : 0 < (DecimalNumber.digitText coeff).length := Nat.length_toDigits_pos
  have hplace : -(places : ℤ) ≤ 0 ∧ -6 < -(places : ℤ) + (DecimalNumber.digitText coeff).length := by omega
  obtain ⟨whole, fraction, tail, htext, htail, hwhole, hdigits, hfraction, -, hlength⟩ :=
    DecimalNumber.pointText_parts (DecimalNumber.digitText_ne_nil coeff) (fun c hc => DecimalNumber.isDigit_digitText hc)
      (show -(places : ℤ) + (DecimalNumber.digitText coeff).length ≤ (DecimalNumber.digitText coeff).length by omega)
  obtain rfl : tail = '.' :: fraction := by
    rcases htail with ⟨-, rfl⟩ | htail
    · rw [List.length_nil] at hlength
      omega
    · exact htail
  refine ⟨whole, fraction, ?_, hwhole, ?_, by omega⟩
  · simp only [DecimalNumber.print, if_pos hplace, htext, sub_self, DecimalNumber.exponentText, if_true, List.append_nil,
      List.append_assoc]
  · intro c hc
    rcases List.mem_append.mp hc with hc | hc
    · exact hdigits c hc
    · exact hfraction c hc

variable {m : Money} {exponent : ℕ}

/-- The exponent of a currency is one of the table. -/
theorem exponentFor_mem {currency : String} (h : exponentFor currency = .ok exponent) :
    (currency, exponent) ∈ currencyExponents := by
  unfold exponentFor at h
  split at h
  · rename_i found hlookup
    obtain rfl := Except.ok.inj h
    obtain ⟨before, after, hsplit, -⟩ := List.lookup_eq_some_iff.mp hlookup
    rw [hsplit]
    exact List.mem_append_right _ List.mem_cons_self
  · cases h

/-- Every currency has some places. -/
theorem exponentFor_pos {currency : String} (h : exponentFor currency = .ok exponent) : 0 < exponent := by
  have hall : ∀ entry ∈ currencyExponents, 0 < entry.2 := by decide
  exact hall _ (exponentFor_mem h)

/-- The currency of an amount has an exponent. -/
theorem Money.exponentFor_ok (m : Money) : ∃ exponent, exponentFor m.currency = .ok exponent := by
  obtain ⟨exponent, hlookup⟩ := Option.isSome_iff_exists.mp m.supported
  exact ⟨exponent, by rw [exponentFor, hlookup]⟩

/-- An amount within the precision keeps its digits. -/
theorem Money.major_fits (hexponent : exponentFor m.currency = .ok exponent) (h : m.minor.natAbs < 10 ^ decimalPrecision) :
    m.major = .ok ⟨m.minor, -exponent⟩ := by
  obtain ⟨quotient, hdiv, htop, hquantize⟩ := Decimal.div_quantize_fits (show 0 < decimalPrecision by decide) exponent h
  have hlimit : (decimalPrecision : ℤ) ≤ defaultContext.emax := by decide
  have hsmall : ¬(defaultContext.emax : ℤ) < quotient.top - 1 := by omega
  simp only [Money.major, hexponent, bind, Except.bind, hdiv, hquantize, if_neg hsmall]

/-- A larger amount is refused. -/
theorem Money.major_large (hexponent : exponentFor m.currency = .ok exponent) (h : 10 ^ decimalPrecision ≤ m.minor.natAbs) :
    m.major = .error .invalidOperation ∨ m.major = .error .decimalOverflow := by
  obtain ⟨quotient, hdiv, hquantize⟩ := Decimal.div_quantize_large (show 0 < decimalPrecision by decide) exponent h
  simp only [Money.major, hexponent, bind, Except.bind, hdiv, hquantize]
  split
  · exact .inr rfl
  · exact .inl rfl

/-- The number of an amount within the precision. -/
def Money.number (m : Money) (exponent : ℕ) : List Char :=
  (DecimalNumber.finite (m.minor < 0) m.minor.natAbs (-exponent)).print

/-- The text of an amount within the precision. -/
theorem Money.str_fits (hexponent : exponentFor m.currency = .ok exponent) (h : m.minor.natAbs < 10 ^ decimalPrecision) :
    m.str = .ok (String.ofList (m.number exponent) ++ " " ++ m.currency) := by
  simp only [Money.str, m.major_fits hexponent h, bind, Except.bind]
  rfl

/-- A larger amount has no text. -/
theorem Money.str_large (hexponent : exponentFor m.currency = .ok exponent) (h : 10 ^ decimalPrecision ≤ m.minor.natAbs) :
    m.str = .error .invalidOperation ∨ m.str = .error .decimalOverflow := by
  rcases m.major_large hexponent h with herror | herror
  · exact .inl (by simp only [Money.str, herror, bind, Except.bind])
  · exact .inr (by simp only [Money.str, herror, bind, Except.bind])

/-- A number within the precision with a few places is one of the decimal implementation. -/
theorem representable_fits {negative : Bool} {coeff places : ℕ} (hcoeff : coeff < 10 ^ decimalPrecision) (hfew : places ≤ 6) :
    representable (.finite negative coeff (-places)) = true := by
  have hdigits := (Decimal.digits_le_iff (show 0 < decimalPrecision by decide)).mpr hcoeff
  have hprec : decimalPrecision = 28 := rfl
  have hmax : maxDecimal = 999999999999999999 := rfl
  have hmin : minEtiny = -1999999999999999997 := rfl
  simp only [representable]
  split
  · rw [Bool.and_eq_true, decide_eq_true_eq, decide_eq_true_eq]
    omega
  · rw [Bool.and_eq_true, Bool.and_eq_true, decide_eq_true_eq, decide_eq_true_eq, decide_eq_true_eq]
    omega

/-- Scaling back leaves the digits of an amount within the precision. -/
theorem fix_fits {negative : Bool} {coeff : ℕ} (hcoeff : coeff < 10 ^ decimalPrecision) :
    defaultContext.fix negative coeff 0 = .ok (.finite negative coeff 0) := by
  have hdigits : Decimal.digits coeff ≤ 28 := (Decimal.digits_le_iff (by decide)).mpr hcoeff
  have hprec : (defaultContext.prec : ℤ) = 28 := rfl
  have hetop : defaultContext.etop = 999972 := by decide
  have hetiny : defaultContext.etiny = -1000026 := by decide
  have hemax : (defaultContext.emax : ℤ) = 999999 := rfl
  unfold DecimalContext.fix DecimalContext.unitExponent
  dsimp only
  rw [hprec, hetop, hetiny, hemax]
  split
  · rename_i hzero
    rw [hzero]
    rfl
  · rw [if_neg (by omega), if_neg (by omega)]

/-- An integer is its magnitude with its sign. -/
theorem signed_natAbs (n : ℤ) : DecimalNumber.signed (n < 0) n.natAbs = n := by
  unfold DecimalNumber.signed
  split
  · rename_i hneg
    have hlt : n < 0 := of_decide_eq_true hneg
    omega
  · rename_i hpos
    have hle : ¬n < 0 := fun hlt => hpos (decide_eq_true hlt)
    omega

/-- The number of an amount within the precision reads back as the amount. -/
theorem Money.fromMajor_number (hexponent : exponentFor m.currency = .ok exponent)
    (h : m.minor.natAbs < 10 ^ decimalPrecision) :
    Money.fromMajor (.str (String.ofList (m.number exponent))) m.currency = .ok m := by
  have hfew : exponent ≤ 6 := (exponentFor_le hexponent).1.trans (by decide)
  have hnumber : Major.number (.str (String.ofList (m.number exponent))) =
      some (.finite (m.minor < 0) m.minor.natAbs (-exponent)) := by
    rw [Major.number, Money.number, numericText_plain fun c hc => DecimalNumber.print_chars _ hc, DecimalNumber.read_print]
  have hscaled : defaultContext.fix (m.minor < 0) m.minor.natAbs (-(exponent : ℤ) + exponent) =
      .ok (.finite (m.minor < 0) m.minor.natAbs 0) := by
    rw [neg_add_cancel]
    exact fix_fits h
  obtain ⟨money, hmoney, hminor, hcurrency⟩ :=
    (Money.fromMajor_scaled hexponent hnumber (representable_fits h hfew) hscaled).1 ⟨m.minor.natAbs, by simp⟩
  have hvalue : DecimalNumber.value (m.minor < 0) m.minor.natAbs 0 = m.minor := by
    rw [DecimalNumber.value, zpow_zero, mul_one, signed_natAbs]
  rw [hvalue] at hminor
  rw [hmoney]
  obtain ⟨minor, currency, supported⟩ := money
  obtain ⟨minor', currency', supported'⟩ := m
  obtain rfl : minor = minor' := by exact_mod_cast hminor
  obtain rfl : currency = currency' := hcurrency
  rfl

/-- The number of an amount has no blank in it. -/
theorem Money.number_ne_space {c : Char} (h : c ∈ m.number exponent) : c ≠ ' ' := by
  rintro rfl
  rcases DecimalNumber.print_chars _ h with hdigit | hmark
  · exact absurd hdigit (by decide)
  · exact absurd hmark (by decide)

/-- The text of an amount within the precision determines the amount. -/
theorem Money.str_inj {m' : Money} (h : m.minor.natAbs < 10 ^ decimalPrecision) (h' : m'.minor.natAbs < 10 ^ decimalPrecision)
    (hstr : m.str = m'.str) : m = m' := by
  obtain ⟨exponent, hexponent⟩ := m.exponentFor_ok
  obtain ⟨exponent', hexponent'⟩ := m'.exponentFor_ok
  rw [m.str_fits hexponent h, m'.str_fits hexponent' h', Except.ok.injEq, ← String.toList_inj] at hstr
  have hblank : " ".toList = [' '] := rfl
  simp only [String.toList_append, String.toList_ofList, List.append_assoc, hblank, List.singleton_append] at hstr
  have hnumber : m.number exponent = m'.number exponent' := by
    have htake := congrArg (List.takeWhile (· ≠ ' ')) hstr
    rwa [List.takeWhile_append_of_pos fun c hc => decide_eq_true (m.number_ne_space hc),
      List.takeWhile_append_of_pos fun c hc => decide_eq_true (m'.number_ne_space hc),
      List.takeWhile_cons_of_neg (by simp), List.takeWhile_cons_of_neg (by simp), List.append_nil, List.append_nil] at htake
  have hcurrency : m.currency = m'.currency := by
    rw [hnumber] at hstr
    exact String.toList_inj.mp (List.cons.inj (List.append_cancel_left hstr)).2
  have hread := m.fromMajor_number hexponent h
  rw [hnumber, hcurrency, m'.fromMajor_number hexponent' h', Except.ok.injEq] at hread
  exact hread.symm

/-- An amount within the precision is shown plainly, with the places of its currency, in a text that reads back as the amount
and that no other amount has; a larger amount is refused. -/
theorem Money.shown_exactly (m : Money) :
    (m.minor.natAbs < 10 ^ decimalPrecision → ∃ exponent number, exponentFor m.currency = .ok exponent ∧
      m.str = .ok (String.ofList number ++ " " ++ m.currency) ∧ IsPlain (m.minor < 0) exponent number ∧
      Money.fromMajor (.str (String.ofList number)) m.currency = .ok m ∧ ∀ m' : Money, m'.str = m.str → m' = m) ∧
    (10 ^ decimalPrecision ≤ m.minor.natAbs → m.str = .error .invalidOperation ∨ m.str = .error .decimalOverflow) := by
  obtain ⟨exponent, hexponent⟩ := m.exponentFor_ok
  constructor
  · intro h
    have hfew : exponent ≤ 6 := (exponentFor_le hexponent).1.trans (by decide)
    refine ⟨exponent, m.number exponent, hexponent, m.str_fits hexponent h, print_plain _ _ (exponentFor_pos hexponent) hfew,
      m.fromMajor_number hexponent h, fun m' hsame => ?_⟩
    rcases Nat.lt_or_ge m'.minor.natAbs (10 ^ decimalPrecision) with h' | h'
    · exact Money.str_inj h' h hsame
    · obtain ⟨exponent', hexponent'⟩ := m'.exponentFor_ok
      rw [m.str_fits hexponent h] at hsame
      rcases m'.str_large hexponent' h' with herror | herror <;> rw [herror] at hsame <;> cases hsame
  · exact m.str_large hexponent

end TaxStamp
