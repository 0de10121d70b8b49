import TaxStamp.Lib.Decimal
import TaxStamp.Lib.Reading

/-!
# Numeric strings

The numbers of the General Decimal Arithmetic and their texts. A finite number keeps its
sign, its coefficient and its exponent; there are signed infinities, and quiet and
signaling NaNs with a payload. A text is read by the grammar of numeric strings, without
regard to case, and printing is lossless: what was printed is read back, down to the
exponent and the sign of a zero.
-/

namespace TaxStamp.Lib

open AlongLists

/-- A number of the General Decimal Arithmetic; a finite one is `± coeff * 10 ^ exp`. -/
inductive DecimalNumber
  | finite (negative : Bool) (coeff : ℕ) (exp : ℤ)
  | infinite (negative : Bool)
  | nan (signaling negative : Bool) (payload : ℕ)
  deriving DecidableEq, Repr

namespace DecimalNumber

/-! ### Reading -/

/-- Read an optional sign. -/
def readSign : List Char → Bool × List Char
  | '-' :: rest => (true, rest)
  | '+' :: rest => (false, rest)
  | text => (false, text)

/-- Read the digits of an exponent with its optional sign. -/
def readExponent (text : List Char) : Option ℤ :=
  let (negative, digits) := readSign text
  if digits ≠ [] ∧ digits.all Char.isDigit then
    let magnitude := Nat.ofDigitChars 10 digits 0
    some (if negative then -magnitude else magnitude)
  else none

/-- Read the exponent part from its indicator on; without one the exponent is zero. -/
def readExponentPart : List Char → Option ℤ
  | [] => some 0
  | _ :: text => readExponent text

/-- Read the digits after a decimal point, when there is one. -/
def readFraction : List Char → Option (List Char)
  | [] => some []
  | '.' :: digits => if digits.all Char.isDigit then some digits else none
  | _ :: _ => none

/-- Read a coefficient with its optional exponent part. -/
def readFinite (negative : Bool) (text : List Char) : Option DecimalNumber :=
  let mantissa := text.takeWhile (· ≠ 'e')
  let whole := mantissa.takeWhile Char.isDigit
  match readFraction (mantissa.dropWhile Char.isDigit), readExponentPart (text.dropWhile (· ≠ 'e')) with
  | some fraction, some exponent =>
    if whole ++ fraction = [] then none
    else some (.finite negative (Nat.ofDigitChars 10 (whole ++ fraction) 0) (exponent - fraction.length))
  | _, _ => none

/-- Read the payload of a NaN. -/
def readPayload (signaling negative : Bool) (digits : List Char) : Option DecimalNumber :=
  if digits.all Char.isDigit then some (.nan signaling negative (Nat.ofDigitChars 10 digits 0)) else none

/-- Read a numeric string. -/
def read (text : List Char) : Option DecimalNumber :=
  let (negative, rest) := readSign text
  let lower := rest.map Char.toLower
  if lower = ['i', 'n', 'f'] ∨ lower = ['i', 'n', 'f', 'i', 'n', 'i', 't', 'y'] then some (.infinite negative)
  else if lower.take 3 = ['n', 'a', 'n'] then readPayload false negative (lower.drop 3)
  else if lower.take 4 = ['s', 'n', 'a', 'n'] then readPayload true negative (lower.drop 4)
  else readFinite negative lower

/-! ### Printing -/

/-- The digits of a coefficient. -/
def digitText (n : ℕ) : List Char := Nat.toDigits 10 n

/-- The sign of a printed number. -/
def signText (negative : Bool) : List Char := if negative then ['-'] else []

/-- The exponent part, with its sign; nothing for a zero exponent. -/
def exponentText (exponent : ℤ) : List Char :=
  if exponent = 0 then []
  else if exponent < 0 then 'E' :: '-' :: digitText exponent.natAbs
  else 'E' :: '+' :: digitText exponent.natAbs

/-- Digits with a decimal point after the given place. -/
def pointText (digits : List Char) (place : ℤ) : List Char :=
  if place ≤ 0 then '0' :: '.' :: List.replicate (-place).toNat '0' ++ digits
  else if (digits.length : ℤ) ≤ place then digits ++ List.replicate (place - digits.length).toNat '0'
  else digits.take place.toNat ++ '.' :: digits.drop place.toNat

/-- Print a number, in scientific notation unless its exponent is small and not positive. -/
def print : DecimalNumber → List Char
  | finite negative coeff exp =>
    let digits := digitText coeff
    let left := exp + digits.length
    let place := if exp ≤ 0 ∧ -6 < left then left else 1
    signText negative ++ pointText digits place ++ exponentText (left - place)
  | infinite negative => signText negative ++ ['I', 'n', 'f', 'i', 'n', 'i', 't', 'y']
  | nan signaling negative payload =>
    signText negative ++ (if signaling then ['s', 'N', 'a', 'N'] else ['N', 'a', 'N']) ++
      if payload = 0 then [] else digitText payload

example : print (.finite false 123 (-2)) = "1.23".toList ∧ print (.finite true 12345 (-10)) = "-0.0000012345".toList ∧
    print (.finite false 123 3) = "1.23E+5".toList ∧ read "-.5e-3".toList = some (.finite true 5 (-4)) := by
  decide

/-! ### What was printed is read back -/

/-- A digit is none of the other characters of a numeric string. -/
theorem digit_ne {c : Char} (h : c.isDigit = true) : c ≠ '-' ∧ c ≠ '+' ∧ c ≠ '.' ∧ c ≠ 'e' ∧ c ≠ 'i' ∧ c ≠ 'n' ∧ c ≠ 's' := by
  refine ⟨?_, ?_, ?_, ?_, ?_, ?_, ?_⟩ <;>
    · rintro rfl
      revert h
      decide

/-- A digit has no other case. -/
theorem toLower_digit {c : Char} (h : c.isDigit = true) : c.toLower = c := by
  have hdigits : ∀ n, 48 ≤ n → n ≤ 57 → (Char.ofNat n).toLower = Char.ofNat n := by decide
  obtain ⟨hlow, hhigh⟩ := Char.isDigit_iff_toNat.mp h
  rw [← Char.ofNat_toNat c]
  exact hdigits c.toNat hlow hhigh

/-- Digits have no other case. -/
theorem map_toLower_digits {text : List Char} (h : ∀ c ∈ text, c.isDigit = true) : text.map Char.toLower = text := by
  rw [List.map_congr_left fun c hc => toLower_digit (h c hc), List.map_id']

/-- The digits of a number are digits. -/
theorem isDigit_digitText {n : ℕ} {c : Char} (h : c ∈ digitText n) : c.isDigit = true :=
  Nat.isDigit_of_mem_toDigits (by decide) (by decide) h

/-- The digits of a number have its value. -/
theorem ofDigitChars_digitText (n : ℕ) : Nat.ofDigitChars 10 (digitText n) 0 = n := Nat.ofDigitChars_ten_toDigits

/-- There is a first digit. -/
theorem digitText_ne_nil (n : ℕ) : digitText n ≠ [] := List.length_pos_iff.mp Nat.length_toDigits_pos

/-- Zeros in front of digits do not count. -/
theorem ofDigitChars_zeros (k : ℕ) (text : List Char) :
    Nat.ofDigitChars 10 (List.replicate k '0' ++ text) 0 = Nat.ofDigitChars 10 text 0 := by
  rw [Nat.ofDigitChars_append, Nat.ofDigitChars_replicate_zero, Nat.mul_zero]

/-- Digits with a point after one of their places are a whole part and a fraction with the same digits. -/
theorem pointText_parts {digits : List Char} (hne : digits ≠ []) (hdigits : ∀ c ∈ digits, c.isDigit = true) {place : ℤ}
    (hplace : place ≤ digits.length) :
    ∃ whole fraction tail, pointText digits place = whole ++ tail ∧ (tail = [] ∧ fraction = [] ∨ tail = '.' :: fraction) ∧
      whole ≠ [] ∧ (∀ c ∈ whole, c.isDigit = true) ∧ (∀ c ∈ fraction, c.isDigit = true) ∧
      Nat.ofDigitChars 10 (whole ++ fraction) 0 = Nat.ofDigitChars 10 digits 0 ∧
      (fraction.length : ℤ) = digits.length - place := by
  unfold pointText
  by_cases hleft : place ≤ 0
  · rw [if_pos hleft]
    refine ⟨['0'], List.replicate (-place).toNat '0' ++ digits, _, rfl, .inr rfl, by simp, by simp, ?_, ?_, ?_⟩
    · intro c hc
      rcases List.mem_append.mp hc with hc | hc
      · rw [(List.mem_replicate.mp hc).2]
        rfl
      · exact hdigits c hc
    · rw [← List.append_assoc, ← List.replicate_one, List.replicate_append_replicate, ofDigitChars_zeros]
    · rw [List.length_append, List.length_replicate]
      omega
  by_cases hright : (digits.length : ℤ) ≤ place
  · have hsame : (place - digits.length).toNat = 0 := by omega
    rw [if_neg hleft, if_pos hright, hsame]
    exact ⟨digits, [], [], by simp, .inl ⟨rfl, rfl⟩, hne, hdigits, by simp, by simp, by simp; omega⟩
  · rw [if_neg hleft, if_neg hright]
    refine ⟨digits.take place.toNat, digits.drop place.toNat, _, rfl, .inr rfl, ?_, ?_, ?_, ?_, ?_⟩
    · rw [← List.length_pos_iff, List.length_take]
      omega
    · exact fun c hc => hdigits c (List.mem_of_mem_take hc)
    · exact fun c hc => hdigits c (List.mem_of_mem_drop hc)
    · rw [List.take_append_drop]
    · rw [List.length_drop]
      omega

/-- An exponent part is empty or starts with its indicator, and is read back. -/
theorem exponentText_read (exponent : ℤ) :
    (exponentText exponent).map Char.toLower = [] ∧ exponent = 0 ∨
      ∃ rest, (exponentText exponent).map Char.toLower = 'e' :: rest ∧ readExponent rest = some exponent := by
  have hread : ∀ sign n, sign = '-' ∨ sign = '+' → readExponent (sign :: digitText n) =
      some (if sign = '-' then -(n : ℤ) else n) := by
    rintro sign n (rfl | rfl)
    · simp [readExponent, readSign, digitText_ne_nil, ofDigitChars_digitText]
      exact fun c hc => isDigit_digitText hc
    · simp [readExponent, readSign, digitText_ne_nil, ofDigitChars_digitText]
      exact fun c hc => isDigit_digitText hc
  have hlower : ∀ n, (digitText n).map Char.toLower = digitText n := fun n => map_toLower_digits fun c => isDigit_digitText
  unfold exponentText
  by_cases hzero : exponent = 0
  · exact .inl ⟨by rw [if_pos hzero, List.map_nil], hzero⟩
  · right
    rw [if_neg hzero]
    by_cases hnegative : exponent < 0
    · refine ⟨'-' :: digitText exponent.natAbs, ?_, ?_⟩
      · rw [if_pos hnegative, List.map_cons, List.map_cons, hlower]
        rfl
      · rw [hread '-' _ (.inl rfl), if_pos rfl]
        congr 1
        omega
    · refine ⟨'+' :: digitText exponent.natAbs, ?_, ?_⟩
      · rw [if_neg hnegative, List.map_cons, List.map_cons, hlower]
        rfl
      · rw [hread '+' _ (.inr rfl), if_neg (by decide)]
        congr 1
        omega

/-- A whole part, a fraction and an exponent part are read as they are written. -/
theorem readFinite_parts (negative : Bool) {whole fraction tail part : List Char} {exponent : ℤ}
    (htail : tail = [] ∧ fraction = [] ∨ tail = '.' :: fraction) (hne : whole ≠ []) (hwhole : ∀ c ∈ whole, c.isDigit = true)
    (hfraction : ∀ c ∈ fraction, c.isDigit = true)
    (hpart : part = [] ∧ exponent = 0 ∨ ∃ rest, part = 'e' :: rest ∧ readExponent rest = some exponent) :
    readFinite negative (whole ++ tail ++ part) =
      some (.finite negative (Nat.ofDigitChars 10 (whole ++ fraction) 0) (exponent - fraction.length)) := by
  have hmantissa : ∀ c ∈ whole ++ tail, decide (c ≠ 'e') = true := by
    intro c hc
    rw [decide_eq_true_eq]
    rcases List.mem_append.mp hc with hc | hc
    · exact (digit_ne (hwhole c hc)).2.2.2.1
    · rcases htail with ⟨rfl, -⟩ | rfl
      · simp at hc
      · rcases List.mem_cons.mp hc with rfl | hc
        · decide
        · exact (digit_ne (hfraction c hc)).2.2.2.1
  have htake : part.takeWhile (· ≠ 'e') = [] := by
    rcases hpart with ⟨rfl, -⟩ | ⟨rest, rfl, -⟩
    · rfl
    · exact List.takeWhile_cons_of_neg (by decide)
  have hdrop : part.dropWhile (· ≠ 'e') = part := by
    rcases hpart with ⟨rfl, -⟩ | ⟨rest, rfl, -⟩
    · rfl
    · exact List.dropWhile_cons_of_neg (by decide)
  have hexponent : readExponentPart part = some exponent := by
    rcases hpart with ⟨rfl, rfl⟩ | ⟨rest, rfl, hread⟩
    · rfl
    · exact hread
  have hpoint : tail.takeWhile Char.isDigit = [] ∧ tail.dropWhile Char.isDigit = tail := by
    rcases htail with ⟨rfl, -⟩ | rfl
    · exact ⟨rfl, rfl⟩
    · exact ⟨List.takeWhile_cons_of_neg (by decide), List.dropWhile_cons_of_neg (by decide)⟩
  have hread : readFraction tail = some fraction := by
    rcases htail with ⟨rfl, rfl⟩ | rfl
    · rfl
    · rw [readFraction, if_pos (List.all_eq_true.mpr hfraction)]
  unfold readFinite
  rw [List.takeWhile_append_of_pos hmantissa, List.dropWhile_append_of_pos hmantissa, htake, hdrop, List.append_nil]
  dsimp only
  rw [List.takeWhile_append_of_pos hwhole, List.dropWhile_append_of_pos hwhole, hpoint.1, hpoint.2, List.append_nil, hread,
    hexponent]
  simp [hne]

/-- A sign in front of a digit or a letter is read back. -/
theorem readSign_signText (negative : Bool) {c : Char} (text : List Char) (hminus : c ≠ '-') (hplus : c ≠ '+') :
    readSign (signText negative ++ c :: text) = (negative, c :: text) := by
  cases negative with
  | true => rfl
  | false =>
    rw [signText, if_neg (by decide), List.nil_append, readSign]
    · intro rest h
      exact hminus (List.cons.inj h).1
    · intro rest h
      exact hplus (List.cons.inj h).1

/-- A number is read back from its text. -/
theorem read_print (d : DecimalNumber) : read d.print = some d := by
  cases d with
  | finite negative coeff exp =>
    let place := if exp ≤ 0 ∧ -6 < exp + (digitText coeff).length then exp + (digitText coeff).length else 1
    have hpositive : 0 < (digitText coeff).length := List.length_pos_iff.mpr (digitText_ne_nil coeff)
    have hplace : place ≤ (digitText coeff).length := by
      dsimp only [place]
      split <;> omega
    obtain ⟨whole, fraction, tail, htext, htail, hne, hwhole, hfraction, hvalue, hlength⟩ :=
      pointText_parts (digitText_ne_nil coeff) (fun c => isDigit_digitText) hplace
    have hlower : tail.map Char.toLower = tail := by
      rcases htail with ⟨rfl, -⟩ | rfl
      · rfl
      · rw [List.map_cons, map_toLower_digits hfraction]
        rfl
    have hfinite := readFinite_parts negative htail hne hwhole hfraction
      (exponentText_read (exp + (digitText coeff).length - place))
    obtain ⟨first, rest, rfl⟩ := List.exists_cons_of_ne_nil hne
    obtain ⟨hminus, hplus, -, -, hi, hn, hs⟩ := digit_ne (hwhole first List.mem_cons_self)
    have hprint : print (.finite negative coeff exp) = signText negative ++ first :: (rest ++ tail ++
        exponentText (exp + (digitText coeff).length - place)) := by
      rw [print, htext]
      simp only [List.append_assoc, List.cons_append]
      rfl
    have hrest : (first :: (rest ++ tail ++ exponentText (exp + (digitText coeff).length - place))).map Char.toLower =
        first :: rest ++ tail ++ (exponentText (exp + (digitText coeff).length - place)).map Char.toLower := by
      rw [← List.cons_append, ← List.cons_append, List.map_append, List.map_append, hlower, map_toLower_digits hwhole]
    unfold read
    rw [hprint, readSign_signText negative _ hminus hplus]
    dsimp only
    rw [hrest, hfinite, hvalue, hlength, ofDigitChars_digitText]
    simp only [List.cons_append, List.take_succ_cons, List.cons.injEq, hi, hn, hs, false_and, or_self, if_false]
    congr 2
    omega
  | infinite negative =>
    have hprint : print (.infinite negative) = signText negative ++ 'I' :: ['n', 'f', 'i', 'n', 'i', 't', 'y'] := rfl
    unfold read
    rw [hprint, readSign_signText negative _ (by decide) (by decide)]
    rfl
  | nan signaling negative payload =>
    obtain ⟨digits, hdigits, hvalue, hlower⟩ : ∃ digits : List Char, digits = (if payload = 0 then [] else digitText payload) ∧
        Nat.ofDigitChars 10 digits 0 = payload ∧ (∀ c ∈ digits, c.isDigit = true) := by
      by_cases hzero : payload = 0
      · exact ⟨[], by rw [if_pos hzero], by simp [hzero], by simp⟩
      · exact ⟨digitText payload, by rw [if_neg hzero], ofDigitChars_digitText payload, fun c => isDigit_digitText⟩
    have hpayload : ∀ signaling, readPayload signaling negative digits = some (.nan signaling negative payload) := by
      intro signaling
      rw [readPayload, if_pos (List.all_eq_true.mpr hlower), hvalue]
    cases signaling with
    | true =>
      have hprint : print (.nan true negative payload) = signText negative ++ 's' :: (['N', 'a', 'N'] ++ digits) := by
        rw [print, hdigits]
        simp
      have hrest : ('s' :: (['N', 'a', 'N'] ++ digits)).map Char.toLower = ['s', 'n', 'a', 'n'] ++ digits := by
        rw [List.map_cons, List.map_append, map_toLower_digits hlower]
        rfl
      unfold read
      rw [hprint, readSign_signText negative _ (by decide) (by decide)]
      dsimp only
      rw [hrest]
      simpa using hpayload true
    | false =>
      have hprint : print (.nan false negative payload) = signText negative ++ 'N' :: (['a', 'N'] ++ digits) := by
        rw [print, hdigits]
        simp
      have hrest : ('N' :: (['a', 'N'] ++ digits)).map Char.toLower = ['n', 'a', 'n'] ++ digits := by
        rw [List.map_cons, List.map_append, map_toLower_digits hlower]
        rfl
      unfold read
      rw [hprint, readSign_signText negative _ (by decide) (by decide)]
      dsimp only
      rw [hrest]
      simpa using hpayload false

/-- The characters of printed numbers other than digits. -/
def marks : List Char := ['-', '+', '.', 'E', 'I', 'n', 'f', 'i', 't', 'y', 's', 'N', 'a']

/-- A printed number has digits and marks only. -/
theorem print_chars (d : DecimalNumber) {c : Char} (h : c ∈ d.print) : c.isDigit = true ∨ c ∈ marks := by
  have hsign : ∀ negative, c ∈ signText negative → c ∈ marks := by
    intro negative hc
    cases negative with
    | true =>
      rw [List.mem_singleton.mp hc]
      decide
    | false => cases hc
  have hpoint : ∀ n place, c ∈ pointText (digitText n) place → c.isDigit = true ∨ c ∈ marks := by
    intro n place hc
    unfold pointText at hc
    have hzero : ∀ k, c ∈ List.replicate k '0' → c.isDigit = true := fun k hk => by rw [(List.mem_replicate.mp hk).2]; rfl
    split at hc
    · simp only [List.cons_append, List.mem_cons, List.mem_append] at hc
      rcases hc with rfl | rfl | hc | hc
      · exact .inl rfl
      · exact .inr (by decide)
      · exact .inl (hzero _ hc)
      · exact .inl (isDigit_digitText hc)
    · split at hc
      · rcases List.mem_append.mp hc with hc | hc
        · exact .inl (isDigit_digitText hc)
        · exact .inl (hzero _ hc)
      · simp only [List.mem_append, List.mem_cons] at hc
        rcases hc with hc | rfl | hc
        · exact .inl (isDigit_digitText (List.mem_of_mem_take hc))
        · exact .inr (by decide)
        · exact .inl (isDigit_digitText (List.mem_of_mem_drop hc))
  have hexponent : ∀ exponent, c ∈ exponentText exponent → c.isDigit = true ∨ c ∈ marks := by
    intro exponent hc
    unfold exponentText at hc
    split at hc
    · cases hc
    · split at hc
      · simp only [List.mem_cons] at hc
        rcases hc with rfl | rfl | hc
        · exact .inr (by decide)
        · exact .inr (by decide)
        · exact .inl (isDigit_digitText hc)
      · simp only [List.mem_cons] at hc
        rcases hc with rfl | rfl | hc
        · exact .inr (by decide)
        · exact .inr (by decide)
        · exact .inl (isDigit_digitText hc)
  cases d with
  | finite negative coeff exp =>
    rw [print] at h
    rcases List.mem_append.mp h with h | h
    · rcases List.mem_append.mp h with h | h
      · exact .inr (hsign negative h)
      · exact hpoint _ _ h
    · exact hexponent _ h
  | infinite negative =>
    rw [print] at h
    rcases List.mem_append.mp h with h | h
    · exact .inr (hsign negative h)
    · have hmarks : ∀ c ∈ ['I', 'n', 'f', 'i', 'n', 'i', 't', 'y'], c ∈ marks := by decide
      exact .inr (hmarks c h)
  | nan signaling negative payload =>
    rw [print] at h
    rcases List.mem_append.mp h with h | h
    · rcases List.mem_append.mp h with h | h
      · exact .inr (hsign negative h)
      · have hmarks : ∀ signaling : Bool, ∀ c ∈ (if signaling then ['s', 'N', 'a', 'N'] else ['N', 'a', 'N']), c ∈ marks := by
          decide
        exact .inr (hmarks signaling c h)
    · split at h
      · cases h
      · exact .inl (isDigit_digitText h)

/-- An integer is printed as its digits with its sign. -/
theorem print_integer (n : ℤ) : (toString n).toList = print (.finite (decide (n < 0)) n.natAbs 0) := by
  have hpositive : 0 < (digitText n.natAbs).length := List.length_pos_iff.mpr (digitText_ne_nil n.natAbs)
  have hprint : print (.finite (decide (n < 0)) n.natAbs 0) = signText (decide (n < 0)) ++ digitText n.natAbs := by
    rw [print, if_pos (by omega), sub_self, exponentText, if_pos rfl, pointText, if_neg (by omega), if_pos (by omega),
      show (0 + ((digitText n.natAbs).length : ℤ) - (digitText n.natAbs).length).toNat = 0 by omega]
    simp
  rw [hprint, Int.toString_eq_repr, Int.repr_eq_if]
  by_cases hnegative : n < 0
  · rw [if_neg (by omega), String.toList_append, Nat.toList_repr, decide_eq_true hnegative, signText, if_pos rfl,
      show (-n).toNat = n.natAbs by omega]
    rfl
  · rw [if_pos (by omega), Nat.toList_repr, decide_eq_false hnegative, signText, if_neg (by decide),
      show n.toNat = n.natAbs by omega]
    rfl

end DecimalNumber

end TaxStamp.Lib
