import TaxStamp.Money
import TaxStamp.Serials
import TaxStamp.Lib.DecimalContext

/-!
# Amounts in major units

An amount given in major units is printed, read as a decimal number, scaled to minor units
in the default context and refused when the result is not an integer. Reading is exact, but
scaling rounds to 28 digits, so that the check for an integer is made on a number that may
have been altered.
-/

namespace TaxStamp

open Lib Lib.AlongLists

/-- The largest precision and exponent of the decimal implementation. -/
def maxDecimal : ℕ := 999999999999999999

/-- The smallest exponent of the decimal implementation. -/
def minEtiny : ℤ := -1999999999999999997

/-- Whether a number is one of the decimal implementation. -/
def representable : DecimalNumber → Bool
  | .finite _ coeff exp =>
    if coeff = 0 then minEtiny ≤ exp && exp ≤ maxDecimal
    else Decimal.digits coeff ≤ maxDecimal && Decimal.digits coeff + exp - 1 ≤ maxDecimal && minEtiny ≤ exp
  | .infinite _ => true
  | .nan _ _ payload => payload = 0 || Decimal.digits payload ≤ maxDecimal

/-- The default context. -/
def defaultContext : DecimalContext := ⟨decimalPrecision, 999999, by decide⟩

/-- What may be passed as an amount; only texts, integers and decimals are accepted. -/
inductive Major
  | str (text : String)
  | int (n : ℤ)
  | decimal (d : DecimalNumber) (valid : representable d = true)
  | float
  | other (typeName : String)

/-- The text of an amount, as `str` gives it; long integers have none. -/
def Major.text : Major → Except Fault String
  | str text => .ok text
  | int n =>
    if Decimal.digits n.natAbs ≤ 4300 then .ok (toString n)
    else .error (.valueError "Exceeds the limit (4300 digits) for integer string conversion")
  | decimal d _ => .ok (String.ofList d.print)
  | float => .error (.moneyError "binary floating point is not accepted for money")
  | other typeName => .error (.moneyError s!"unsupported monetary input type: {typeName}")

/-- The numeric string in a text: surrounding white space and all underscores are dropped, and the digits of every script
are read as ASCII digits. -/
def numericText (text : String) : List Char :=
  let stripped := ((text.toList.dropWhile isPySpace).reverse.dropWhile isPySpace).reverse
  (stripped.filter (· ≠ '_')).map fun c => ((digitValue? c).map fun d => Char.ofNat (48 + d)).getD c

/-- The decimal of a text. -/
def decimalOfText (text : String) : Except Fault DecimalNumber :=
  match DecimalNumber.read (numericText text) with
  | some d => if representable d then .ok d else .error .invalidOperation
  | none => .error .invalidOperation

/-- The exception of a trapped condition. -/
def Fault.ofSignal : DecimalSignal → Fault
  | .invalidOperation => .invalidOperation
  | .overflow => .decimalOverflow

/-- The integer of a decimal. -/
def intOfDecimal : DecimalNumber → Except Fault ℤ
  | .finite negative coeff exp => .ok (DecimalNumber.truncate negative coeff exp)
  | .infinite _ => .error .overflowError
  | .nan .. => .error (.valueError "cannot convert NaN to integer")

/-- Build an amount from major units. -/
def Money.fromMajor (major : Major) (currency : String) : Except Fault Money := do
  let exponent ← exponentFor currency
  let text ← major.text
  let number ← decimalOfText text
  let value ← (defaultContext.scaleb number exponent).mapError Fault.ofSignal
  if value.numEq value.toIntegralValue = false then
    .error (.moneyError s!"{text} has more precision than {currency} supports")
  else
    let minor ← intOfDecimal value
    Money.make minor currency

/-! ### Reading what was printed -/

/-- Digits and marks are neither white space nor underscores, and stand for themselves. -/
theorem numericText_plain {text : List Char} (h : ∀ c ∈ text, c.isDigit = true ∨ c ∈ DecimalNumber.marks) :
    numericText (String.ofList text) = text := by
  have hdigits : ∀ n, 48 ≤ n → n ≤ 57 → isPySpace (Char.ofNat n) = false ∧ Char.ofNat n ≠ '_' ∧
      ((digitValue? (Char.ofNat n)).map fun d => Char.ofNat (48 + d)).getD (Char.ofNat n) = Char.ofNat n := by
    decide
  have hmarks : ∀ c ∈ DecimalNumber.marks, isPySpace c = false ∧ c ≠ '_' ∧
      ((digitValue? c).map fun d => Char.ofNat (48 + d)).getD c = c := by
    decide
  have hplain : ∀ c ∈ text, isPySpace c = false ∧ c ≠ '_' ∧
      ((digitValue? c).map fun d => Char.ofNat (48 + d)).getD c = c := by
    intro c hc
    rcases h c hc with hdigit | hmark
    · obtain ⟨hlow, hhigh⟩ := Char.isDigit_iff_toNat.mp hdigit
      rw [← Char.ofNat_toNat c]
      exact hdigits c.toNat hlow hhigh
    · exact hmarks c hmark
  have hkeep : ∀ l : List Char, (∀ c ∈ l, c ∈ text) → l.dropWhile isPySpace = l := by
    intro l hl
    cases l with
    | nil => rfl
    | cons c l => exact List.dropWhile_cons_of_neg (by simp [(hplain c (hl c List.mem_cons_self)).1])
  unfold numericText
  rw [String.toList_ofList, hkeep text fun c hc => hc, hkeep _ fun c hc => List.mem_reverse.mp hc, List.reverse_reverse]
  dsimp only
  rw [List.filter_eq_self.mpr fun c hc => decide_eq_true (hplain c hc).2.1,
    List.map_congr_left fun c hc => (hplain c hc).2.2, List.map_id']

/-- A printed number is read back. -/
theorem decimalOfText_print {d : DecimalNumber} (h : representable d = true) : decimalOfText (String.ofList d.print) = .ok d := by
  rw [decimalOfText, numericText_plain fun c hc => d.print_chars hc, DecimalNumber.read_print]
  exact if_pos h

/-- The number that an amount denotes. -/
def Major.number : Major → Option DecimalNumber
  | str text => DecimalNumber.read (numericText text)
  | int n => some (.finite (n < 0) n.natAbs 0)
  | decimal d _ => some d
  | float => none
  | other _ => none

/-- Whether an amount is converted to a decimal: an integer must be printed, and the number of a text must be one of the
decimal implementation. -/
def Major.Convertible : Major → DecimalNumber → Prop
  | str _, d => representable d = true
  | int n, _ => Decimal.digits n.natAbs ≤ 4300
  | _, _ => True

/-- An amount that is converted is scaled and checked as the number it denotes. -/
theorem Money.fromMajor_eq {major : Major} {currency : String} {exponent : ℕ} {d : DecimalNumber}
    (hcurrency : exponentFor currency = .ok exponent) (hnumber : major.number = some d) (hconvertible : major.Convertible d) :
    ∃ message, Money.fromMajor major currency =
      ((defaultContext.scaleb d exponent).mapError Fault.ofSignal).bind fun value =>
        if value.numEq value.toIntegralValue = false then .error (.moneyError message)
        else (intOfDecimal value).bind fun minor => Money.make minor currency := by
  obtain ⟨text, htext, hdecimal⟩ : ∃ text, major.text = .ok text ∧ decimalOfText text = .ok d := by
    cases major with
    | str text =>
      refine ⟨text, rfl, ?_⟩
      rw [Major.number] at hnumber
      rw [decimalOfText, hnumber]
      exact if_pos hconvertible
    | int n =>
      refine ⟨toString n, if_pos hconvertible, ?_⟩
      have hrepresentable : representable (.finite (decide (n < 0)) n.natAbs 0) = true := by
        have hdigits : Decimal.digits n.natAbs ≤ 4300 := hconvertible
        rw [representable]
        split
        · rfl
        · simp only [Bool.and_eq_true]
          exact ⟨⟨decide_eq_true (by unfold maxDecimal; omega), decide_eq_true (by unfold maxDecimal; omega)⟩, rfl⟩
      obtain rfl := Option.some.inj hnumber
      rw [← String.ofList_toList (s := toString n), DecimalNumber.print_integer]
      exact decimalOfText_print hrepresentable
    | decimal d' hvalid =>
      obtain rfl := Option.some.inj hnumber
      exact ⟨_, rfl, decimalOfText_print hvalid⟩
    | float => cases hnumber
    | other typeName => cases hnumber
  refine ⟨s!"{text} has more precision than {currency} supports", ?_⟩
  simp only [Money.fromMajor, hcurrency, htext, hdecimal, bind, Except.bind]

/-! ### Exact or refused -/

/-- What is asked of an amount: when it denotes a number with an integral number of minor units, that number is the
result, and in every other case the amount is refused. -/
def Money.ExactOrRefused (major : Major) (currency : String) (exponent : ℕ) : Prop :=
  (∀ negative coeff exp, ∀ m : ℤ, major.number = some (.finite negative coeff exp) →
    DecimalNumber.value negative coeff exp * 10 ^ exponent = m →
    ∃ money, Money.fromMajor major currency = .ok money ∧ money.minor = m ∧ money.currency = currency) ∧
  ((¬∃ negative coeff exp, ∃ m : ℤ, major.number = some (.finite negative coeff exp) ∧
      DecimalNumber.value negative coeff exp * 10 ^ exponent = m) →
    ∃ message, Money.fromMajor major currency = .error (.moneyError message))

/-- The numbers that the scaling leaves alone, or at least does not make integers. -/
def ScalesFaithfully (exponent : ℕ) : DecimalNumber → Prop
  | .finite _ coeff exp => coeff = 0 ∨
    (2 * ((coeff : ℚ) * 10 ^ (exp + exponent)) + 10 ^ defaultContext.unitExponent coeff (exp + exponent) <
        2 * 10 ^ (defaultContext.emax + 1 : ℤ) ∧
      defaultContext.Faithful coeff (exp + exponent))
  | .infinite _ => False
  | .nan signaling _ _ => signaling = false

/-- The amounts for which the result is exact or a refusal. -/
def Major.Admissible (major : Major) (exponent : ℕ) : Prop :=
  match major with
  | float => True
  | other _ => True
  | major => ∃ d, major.number = some d ∧ major.Convertible d ∧ ScalesFaithfully exponent d

section Settling

variable {major : Major} {currency : String} {exponent : ℕ}

/-- Any other exception is neither exact nor a refusal. -/
theorem Money.not_exactOrRefused {fault : Fault} (hfault : ∀ message, fault ≠ .moneyError message)
    (h : Money.fromMajor major currency = .error fault) : ¬Money.ExactOrRefused major currency exponent := by
  rintro ⟨hexact, hrefused⟩
  by_cases hinteger : ∃ negative coeff exp, ∃ m : ℤ, major.number = some (.finite negative coeff exp) ∧
      DecimalNumber.value negative coeff exp * 10 ^ exponent = m
  · obtain ⟨negative, coeff, exp, m, hnumber, hvalue⟩ := hinteger
    obtain ⟨money, hok, -⟩ := hexact negative coeff exp m hnumber hvalue
    rw [h] at hok
    cases hok
  · obtain ⟨message, herror⟩ := hrefused hinteger
    rw [h] at herror
    exact hfault message (Except.error.inj herror)

/-- The exponents of the supported currencies are in the range of the scaling. -/
theorem exponentFor_le (h : exponentFor currency = .ok exponent) : exponent ≤ 2 ∧
    (currencyExponents.lookup currency).isSome = true := by
  unfold exponentFor at h
  split at h
  · rename_i found hlookup
    obtain rfl := Except.ok.inj h
    obtain ⟨before, after, hsplit, -⟩ := List.lookup_eq_some_iff.mp hlookup
    have hall : ∀ entry ∈ currencyExponents, entry.2 ≤ 2 := by decide
    refine ⟨hall (currency, found) ?_, by rw [hlookup]; rfl⟩
    rw [hsplit]
    exact List.mem_append_right _ List.mem_cons_self
  · cases h

/-- An amount without a text ends the construction. -/
theorem Money.fromMajor_text {fault : Fault} (hcurrency : exponentFor currency = .ok exponent)
    (h : major.text = .error fault) : Money.fromMajor major currency = .error fault := by
  simp only [Money.fromMajor, hcurrency, h, bind, Except.bind]

/-- Scaling by a currency's exponent moves the point and rounds. -/
theorem scaleb_finite (hcurrency : exponentFor currency = .ok exponent) {negative : Bool} {coeff : ℕ} {exp : ℤ} :
    defaultContext.scaleb (.finite negative coeff exp) exponent = defaultContext.fix negative coeff (exp + exponent) := by
  have hplaces := (exponentFor_le hcurrency).1
  have hlimit : 2 ≤ 2 * (defaultContext.emax + defaultContext.prec) := by decide
  rw [DecimalContext.scaleb, if_neg (by omega)]

/-- A trapped condition ends the construction. -/
theorem Money.fromMajor_signal {d : DecimalNumber} {signal : DecimalSignal} (hcurrency : exponentFor currency = .ok exponent)
    (hnumber : major.number = some d) (hconvertible : major.Convertible d)
    (h : defaultContext.scaleb d exponent = .error signal) :
    Money.fromMajor major currency = .error (Fault.ofSignal signal) := by
  obtain ⟨message, heq⟩ := Money.fromMajor_eq hcurrency hnumber hconvertible
  rw [heq, h]
  rfl

/-- A scaled number gives an amount when it is an integer, and a refusal otherwise. -/
theorem Money.fromMajor_scaled {negative : Bool} {coeff c : ℕ} {exp e : ℤ} (hcurrency : exponentFor currency = .ok exponent)
    (hnumber : major.number = some (.finite negative coeff exp)) (hconvertible : major.Convertible (.finite negative coeff exp))
    (hfix : defaultContext.fix negative coeff (exp + exponent) = .ok (.finite negative c e)) :
    ((∃ n : ℤ, (c : ℚ) * 10 ^ e = n) → ∃ money, Money.fromMajor major currency = .ok money ∧
      (money.minor : ℚ) = DecimalNumber.value negative c e ∧ money.currency = currency) ∧
    ((¬∃ n : ℤ, (c : ℚ) * 10 ^ e = n) → ∃ message, Money.fromMajor major currency = .error (.moneyError message)) := by
  have hsupported := (exponentFor_le hcurrency).2
  obtain ⟨message, heq⟩ := Money.fromMajor_eq hcurrency hnumber hconvertible
  rw [scaleb_finite hcurrency, hfix] at heq
  obtain ⟨hinteger, htruncate⟩ := DecimalNumber.numEq_toIntegralValue negative c e
  refine ⟨fun hn => ?_, fun hn => ⟨message, ?_⟩⟩
  · refine ⟨⟨DecimalNumber.truncate negative c e, currency, hsupported⟩, ?_, htruncate hn, rfl⟩
    rw [heq]
    simp only [Except.mapError, Except.bind, hinteger.mpr hn, Bool.true_eq_false, if_false, intOfDecimal]
    exact dif_pos hsupported
  · rw [heq]
    have hfalse := Bool.eq_false_iff.mpr fun htrue => hn (hinteger.mp htrue)
    simp only [Except.mapError, Except.bind, hfalse, if_true]

/-- The number of minor units is the scaled number with its sign. -/
theorem value_mul_ten (negative : Bool) (coeff : ℕ) (exp : ℤ) (exponent : ℕ) :
    DecimalNumber.value negative coeff exp * 10 ^ exponent = DecimalNumber.value negative coeff (exp + exponent) := by
  rw [DecimalNumber.value, DecimalNumber.value, mul_assoc, zpow_add₀ (by norm_num), zpow_natCast]

/-- A number is an integer exactly when its magnitude is. -/
theorem value_integer_iff (negative : Bool) (coeff : ℕ) (exp : ℤ) :
    (∃ n : ℤ, DecimalNumber.value negative coeff exp = n) ↔ ∃ n : ℤ, (coeff : ℚ) * 10 ^ exp = n := by
  rw [DecimalNumber.value_eq]
  cases negative with
  | false => exact Iff.rfl
  | true =>
    constructor
    · rintro ⟨n, hn⟩
      exact ⟨-n, by rw [Int.cast_neg, ← hn]; simp⟩
    · rintro ⟨n, hn⟩
      exact ⟨-n, by rw [Int.cast_neg, ← hn]; simp⟩

/-- Numbers of one sign are equal exactly when their magnitudes are. -/
theorem value_inj {negative : Bool} {coeff coeff' : ℕ} {exp exp' : ℤ} :
    DecimalNumber.value negative coeff exp = DecimalNumber.value negative coeff' exp' ↔
      (coeff : ℚ) * 10 ^ exp = coeff' * 10 ^ exp' := by
  rw [DecimalNumber.value_eq, DecimalNumber.value_eq]
  cases negative <;> simp

/-- A finite number that is converted is exact or refused exactly when the scaling leaves it alone or does not make it an
integer. -/
theorem Money.exactOrRefused_finite {negative : Bool} {coeff : ℕ} {exp : ℤ} (hcurrency : exponentFor currency = .ok exponent)
    (hnumber : major.number = some (.finite negative coeff exp))
    (hconvertible : major.Convertible (.finite negative coeff exp)) :
    Money.ExactOrRefused major currency exponent ↔ ScalesFaithfully exponent (.finite negative coeff exp) := by
  have hinteger : (∃ negative' coeff' exp', ∃ m : ℤ, major.number = some (.finite negative' coeff' exp') ∧
      DecimalNumber.value negative' coeff' exp' * 10 ^ exponent = m) ↔
      ∃ m : ℤ, DecimalNumber.value negative coeff (exp + exponent) = m := by
    simp only [hnumber, Option.some.injEq, DecimalNumber.finite.injEq, ← value_mul_ten]
    constructor
    · rintro ⟨negative', coeff', exp', m, ⟨rfl, rfl, rfl⟩, hm⟩
      exact ⟨m, hm⟩
    · rintro ⟨m, hm⟩
      exact ⟨negative, coeff, exp, m, ⟨rfl, rfl, rfl⟩, hm⟩
  have hexact : ∀ {c : ℕ} {e : ℤ}, (c : ℚ) * 10 ^ e = coeff * 10 ^ (exp + exponent) →
      defaultContext.fix negative coeff (exp + exponent) = .ok (.finite negative c e) →
      Money.ExactOrRefused major currency exponent := by
    intro c e hsame hfix
    obtain ⟨hok, hrefused⟩ := Money.fromMajor_scaled hcurrency hnumber hconvertible hfix
    rw [hsame] at hok hrefused
    refine ⟨?_, fun hno => hrefused ?_⟩
    · intro negative' coeff' exp' m hnumber' hm
      simp only [hnumber, Option.some.injEq, DecimalNumber.finite.injEq] at hnumber'
      obtain ⟨rfl, rfl, rfl⟩ := hnumber'
      rw [value_mul_ten] at hm
      obtain ⟨money, hmoney, hminor, hcurrency'⟩ := hok ((value_integer_iff negative coeff _).mp ⟨m, hm⟩)
      rw [value_inj.mpr hsame, hm] at hminor
      exact ⟨money, hmoney, by exact_mod_cast hminor, hcurrency'⟩
    · rwa [hinteger, value_integer_iff] at hno
  by_cases hzero : coeff = 0
  · -- zero stays zero
    have hfix : defaultContext.fix negative coeff (exp + exponent) =
        .ok (.finite negative 0 (min (max (exp + exponent) defaultContext.etiny) defaultContext.emax)) := by
      rw [DecimalContext.fix, if_pos hzero]
    exact iff_of_true (hexact (by rw [hzero]; simp) hfix) (.inl hzero)
  rcases DecimalContext.fix_cases defaultContext negative (exp + exponent) hzero with ⟨hfix, hover⟩ | ⟨c, e, hfix, hunder, -⟩
  · have hscaleb : defaultContext.scaleb (.finite negative coeff exp) exponent = .error .overflow := by
      rw [scaleb_finite hcurrency, hfix]
    have herror := Money.fromMajor_signal hcurrency hnumber hconvertible hscaleb
    refine iff_of_false (Money.not_exactOrRefused (by simp [Fault.ofSignal]) herror) ?_
    rintro (hzero' | ⟨hunder, -⟩)
    · exact hzero hzero'
    · exact absurd hunder (not_lt.mpr hover)
  · obtain ⟨hok, hrefused⟩ := Money.fromMajor_scaled hcurrency hnumber hconvertible hfix
    have hsettles : ScalesFaithfully exponent (.finite negative coeff exp) ↔ defaultContext.Faithful coeff (exp + exponent) :=
      ⟨fun hs => (hs.resolve_left hzero).2, fun hs => .inr ⟨hunder, hs⟩⟩
    rw [hsettles, ← DecimalContext.fix_faithful_iff negative hzero hfix]
    constructor
    · intro hclaim
      by_contra hneither
      push Not at hneither
      obtain ⟨hdiffers, hwhole⟩ := hneither
      obtain ⟨money, hmoney, hminor, -⟩ := hok hwhole
      by_cases hno : ∃ m : ℤ, DecimalNumber.value negative coeff (exp + exponent) = m
      · obtain ⟨m, hm⟩ := hno
        obtain ⟨money', hmoney', hminor', -⟩ := hclaim.1 negative coeff exp m hnumber (by rw [value_mul_ten, hm])
        obtain rfl := Except.ok.inj (hmoney.symm.trans hmoney')
        rw [hminor', ← hm, value_inj] at hminor
        exact hdiffers hminor.symm
      · obtain ⟨message, herror⟩ := hclaim.2 (by rwa [hinteger])
        rw [hmoney] at herror
        cases herror
    · rintro (hsame | hfraction)
      · exact hexact hsame hfix
      · refine ⟨?_, fun _ => hrefused hfraction⟩
        intro negative' coeff' exp' m hnumber' hm
        simp only [hnumber, Option.some.injEq, DecimalNumber.finite.injEq] at hnumber'
        obtain ⟨rfl, rfl, rfl⟩ := hnumber'
        rw [value_mul_ten] at hm
        obtain ⟨n, hn⟩ := (value_integer_iff negative coeff _).mp ⟨m, hm⟩
        exact absurd (DecimalContext.fix_integer negative hzero hfix hn) hfraction

/-- A number that is not finite is refused when it is a quiet NaN, and fails otherwise. -/
theorem Money.exactOrRefused_special {d : DecimalNumber} (hcurrency : exponentFor currency = .ok exponent)
    (hnumber : major.number = some d) (hconvertible : major.Convertible d)
    (hspecial : ∀ negative coeff exp, d ≠ .finite negative coeff exp) :
    Money.ExactOrRefused major currency exponent ↔ ScalesFaithfully exponent d := by
  cases d with
  | finite negative coeff exp => exact absurd rfl (hspecial negative coeff exp)
  | infinite negative =>
    obtain ⟨message, heq⟩ := Money.fromMajor_eq hcurrency hnumber hconvertible
    have hplaces := (exponentFor_le hcurrency).1
    have hlimit : 2 ≤ 2 * (defaultContext.emax + defaultContext.prec) := by decide
    rw [DecimalContext.scaleb, if_neg (by omega)] at heq
    have herror : Money.fromMajor major currency = .error .overflowError := by
      rw [heq]
      simp [Except.mapError, Except.bind, DecimalNumber.toIntegralValue, DecimalNumber.numEq, intOfDecimal]
    exact iff_of_false (Money.not_exactOrRefused (by simp) herror) id
  | nan signaling negative payload =>
    cases signaling with
    | true =>
      have hscaleb : defaultContext.scaleb (.nan true negative payload) exponent = .error .invalidOperation := rfl
      have herror := Money.fromMajor_signal hcurrency hnumber hconvertible hscaleb
      exact iff_of_false (Money.not_exactOrRefused (by simp [Fault.ofSignal]) herror) Bool.noConfusion
    | false =>
      obtain ⟨message, heq⟩ := Money.fromMajor_eq hcurrency hnumber hconvertible
      refine iff_of_true ⟨fun negative' coeff' exp' m hnumber' => ?_, fun _ => ⟨message, ?_⟩⟩ rfl
      · rw [hnumber] at hnumber'
        cases hnumber'
      · rw [heq]
        rfl

/-- An amount that is not converted fails. -/
theorem Money.fromMajor_unconverted {d : DecimalNumber} (hcurrency : exponentFor currency = .ok exponent)
    (hnumber : major.number = some d) (hunconverted : ¬major.Convertible d) :
    ¬Money.ExactOrRefused major currency exponent := by
  cases major with
  | str text =>
    have herror : Money.fromMajor (.str text) currency = .error .invalidOperation := by
      rw [Major.number] at hnumber
      have hdecimal : decimalOfText text = .error .invalidOperation := by
        rw [decimalOfText, hnumber]
        exact if_neg hunconverted
      simp only [Money.fromMajor, hcurrency, Major.text, hdecimal, bind, Except.bind]
    exact Money.not_exactOrRefused (by simp) herror
  | int n =>
    have htext : (Major.int n).text =
        .error (.valueError "Exceeds the limit (4300 digits) for integer string conversion") := if_neg hunconverted
    exact Money.not_exactOrRefused (by simp) (Money.fromMajor_text hcurrency htext)
  | decimal d' hvalid => exact absurd trivial hunconverted
  | float => cases hnumber
  | other typeName => cases hnumber

end Settling

/-- An amount in major units is exact or refused exactly for the admissible inputs: a quiet NaN, or a finite number that
is converted, does not overflow in the context and, scaled to minor units, is a multiple of the unit of its last digit
there or is more than half that unit away from every integer. -/
theorem Money.fromMajor_exact_iff (major : Major) (currency : String) (exponent : ℕ)
    (hcurrency : exponentFor currency = .ok exponent) :
    Money.ExactOrRefused major currency exponent ↔ major.Admissible exponent := by
  have hnumeric : ∀ major : Major, (major.number = none → ∃ fault, Money.fromMajor major currency = .error fault ∧
      ∀ message, fault ≠ .moneyError message) → (Money.ExactOrRefused major currency exponent ↔
      ∃ d, major.number = some d ∧ major.Convertible d ∧ ScalesFaithfully exponent d) := by
    intro major hnone
    cases hnumber : major.number with
    | none =>
      obtain ⟨fault, herror, hfault⟩ := hnone hnumber
      exact iff_of_false (Money.not_exactOrRefused hfault herror) (by simp)
    | some d =>
      simp only [Option.some.injEq, exists_eq_left']
      by_cases hconvertible : major.Convertible d
      · simp only [hconvertible, true_and]
        cases d with
        | finite negative coeff exp => exact Money.exactOrRefused_finite hcurrency hnumber hconvertible
        | infinite negative => exact Money.exactOrRefused_special hcurrency hnumber hconvertible (by simp)
        | nan signaling negative payload => exact Money.exactOrRefused_special hcurrency hnumber hconvertible (by simp)
      · simp only [hconvertible, false_and, iff_false]
        exact Money.fromMajor_unconverted hcurrency hnumber hconvertible
  cases major with
  | str text =>
    refine hnumeric (.str text) fun hnone => ⟨.invalidOperation, ?_, by simp⟩
    rw [Major.number] at hnone
    have hdecimal : decimalOfText text = .error .invalidOperation := by rw [decimalOfText, hnone]
    simp only [Money.fromMajor, hcurrency, Major.text, hdecimal, bind, Except.bind]
  | int n => exact hnumeric (.int n) fun hnone => by cases hnone
  | decimal d hvalid => exact hnumeric (.decimal d hvalid) fun hnone => by cases hnone
  | float =>
    exact iff_of_true ⟨fun _ _ _ _ hnumber => (by cases hnumber), fun _ => ⟨_, Money.fromMajor_text hcurrency rfl⟩⟩ trivial
  | other typeName =>
    exact iff_of_true ⟨fun _ _ _ _ hnumber => (by cases hnumber), fun _ => ⟨_, Money.fromMajor_text hcurrency rfl⟩⟩ trivial

/-- An ordinary amount is admissible and exact. -/
theorem Money.fromMajor_exact_sample : exponentFor "NGN" = .ok 2 ∧ Money.ExactOrRefused (.str "12345.67") "NGN" 2 := by
  have hnumber : Major.number (.str "12345.67") = some (.finite false 1234567 (-2)) := by decide
  have hunit : defaultContext.unitExponent 1234567 (-2 + (2 : ℕ)) = -21 := by decide
  have hrepresentable : representable (.finite false 1234567 (-2)) = true := by decide
  have hlarge : (10 : ℚ) ^ (8 : ℤ) ≤ 10 ^ (defaultContext.emax + 1 : ℤ) := DecimalContext.ten_zpow_mono (by decide)
  refine ⟨rfl, (Money.fromMajor_exact_iff (.str "12345.67") "NGN" 2 rfl).mpr ⟨_, hnumber, hrepresentable, .inr ⟨?_, ?_⟩⟩⟩
  · rw [hunit]
    refine lt_of_lt_of_le (b := 2 * (10 : ℚ) ^ (8 : ℤ)) ?_ (mul_le_mul_of_nonneg_left hlarge (by norm_num))
    norm_num
  · refine .inl ⟨1234567 * 10 ^ 21, ?_⟩
    rw [hunit]
    norm_num

/-- An amount with a hundredth beyond the 28th digit is accepted and loses it. -/
theorem Money.not_fromMajor_exact : ¬Money.ExactOrRefused (.str "100000000000000000000000000.01") "NGN" 2 := by
  intro hclaim
  have hnumber : Major.number (.str "100000000000000000000000000.01") = some (.finite false (10 ^ 28 + 1) (-2)) := by
    decide
  have hresult : (Money.fromMajor (.str "100000000000000000000000000.01") "NGN").map Money.minor = .ok (10 ^ 28) := by
    decide
  obtain ⟨money, hmoney, hminor, -⟩ := hclaim.1 false (10 ^ 28 + 1) (-2) (10 ^ 28 + 1) hnumber
    (by norm_num [DecimalNumber.value, DecimalNumber.signed])
  rw [hmoney, Except.map, Except.ok.injEq, hminor] at hresult
  norm_num at hresult

end TaxStamp
