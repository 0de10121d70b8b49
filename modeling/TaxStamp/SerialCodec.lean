import TaxStamp.Serials
import TaxStamp.Timestamps

/-!
# Formatted serials are valid

The pattern of a serial has fixed positions, and a formatted serial fills them: its number
is padded to ten digits and its year to four. Its check character is the one the parser
recomputes, so no serial that was ever formatted is refused before the lookup.
-/

namespace TaxStamp

open Lib

/-- A number that is not longer than the width is padded to the width. -/
theorem zeroPad_length {width n : ℕ} (hwidth : 0 < width) (h : n < 10 ^ width) :
    (zeroPad width n).toList.length = width := by
  have hdigits : (toString n).toList.length ≤ width := by
    rw [Nat.toString_eq_repr, String.length_toList]
    exact (Nat.length_repr_le_iff hwidth).mpr h
  rw [zeroPad, String.toList_ofList, List.length_append, List.length_replicate]
  omega

/-- An ASCII digit is a decimal digit. -/
theorem digitValue?_isSome {c : Char} (h : c.isDigit = true) : (digitValue? c).isSome = true := by
  rw [Char.isDigit_iff_toNat] at h
  unfold digitValue?
  rw [Option.isSome_map, List.find?_isSome]
  refine ⟨0x30, by decide, decide_eq_true ⟨h.1, ?_⟩⟩
  exact Nat.lt_succ_of_le h.2

/-- The text before the last dash. -/
theorem beforeLastDash_append {payload : List Char} {check : Char} (h : check ≠ '-') :
    beforeLastDash (payload ++ ['-', check]) = payload := by
  have hreverse : (payload ++ ['-', check]).reverse = check :: '-' :: payload.reverse := by simp
  rw [beforeLastDash, hreverse, List.dropWhile_cons_of_pos (by simpa using h), List.dropWhile_cons_of_neg (by simp),
    List.drop_one, List.tail_cons, List.reverse_reverse]

/-- A text with the groups at their positions matches. -/
theorem serialMatch_groups {cat year seq : List Char} {check : Char} (hcat : cat.length = 3) (hyear : year.length = 4)
    (hseq : seq.length = 10) (hletters : cat.all (fun c => 'A' ≤ c ∧ c ≤ 'Z') = true)
    (hyearDigits : year.all (fun c => (digitValue? c).isSome) = true)
    (hseqDigits : seq.all (fun c => (digitValue? c).isSome) = true)
    (hcheck : ('0' ≤ check ∧ check ≤ '9') ∨ ('A' ≤ check ∧ check ≤ 'Z')) :
    serialMatch (['N', 'G', '-'] ++ cat ++ ['-'] ++ year ++ ['-'] ++ seq ++ ['-', check]) =
      some ⟨cat, year, seq, check⟩ := by
  match cat, hcat, year, hyear, seq, hseq with
  | [c₁, c₂, c₃], _, [y₁, y₂, y₃, y₄], _, [s₁, s₂, s₃, s₄, s₅, s₆, s₇, s₈, s₉, s₁₀], _ =>
    change (if _ then _ else none) = _
    exact if_pos ⟨rfl, hletters, rfl, hyearDigits, rfl, hseqDigits, rfl, hcheck, .inl rfl⟩

/-- The code of a category is the one in the table. -/
theorem categoryCode_mem {productCategory code : String} (h : categoryCode productCategory = .ok code) :
    (productCategory, code) ∈ categoryCodes := by
  unfold categoryCode at h
  split at h
  · rename_i code' hlookup
    obtain rfl := Except.ok.inj h
    obtain ⟨before, after, hsplit, -⟩ := List.lookup_eq_some_iff.mp hlookup
    rw [hsplit]
    exact List.mem_append_right _ List.mem_cons_self
  · cases h

/-- The code of a category has three capital letters. -/
theorem categoryCode_ok {productCategory code : String} (h : categoryCode productCategory = .ok code) :
    code.toList.length = 3 ∧ code.toList.all (fun c => 'A' ≤ c ∧ c ≤ 'Z') = true := by
  have hcodes : ∀ entry ∈ categoryCodes,
      entry.2.toList.length = 3 ∧ entry.2.toList.all (fun c => 'A' ≤ c ∧ c ≤ 'Z') = true := by decide
  exact hcodes (productCategory, code) (categoryCode_mem h)

/-- A check character is in the alphabet. -/
theorem checkCharacter_mem {payload : List Char} {check : Char} (h : checkCharacter payload = .ok check) :
    check ∈ alphabet := by
  simp only [checkCharacter, Except.bind_ok] at h
  obtain ⟨total, -, hcheck⟩ := h
  have hindex : (alphabet.length - total % alphabet.length) % alphabet.length < alphabet.length :=
    Nat.mod_lt _ (by decide)
  have hget : alphabet.getD ((alphabet.length - total % alphabet.length) % alphabet.length) '0' =
      alphabet.get ⟨_, hindex⟩ := by
    rw [List.getD, List.getElem?_eq_getElem hindex, Option.getD_some, List.get_eq_getElem]
  rw [← Except.ok.inj hcheck, hget]
  exact List.get_mem _ _

/-- A check character is a digit or a capital letter. -/
theorem checkCharacter_ok {payload : List Char} {check : Char} (h : checkCharacter payload = .ok check) :
    (('0' ≤ check ∧ check ≤ '9') ∨ ('A' ≤ check ∧ check ≤ 'Z')) ∧ check ≠ '-' := by
  have hall : alphabet.all (fun c => (('0' ≤ c ∧ c ≤ '9') ∨ ('A' ≤ c ∧ c ≤ 'Z')) ∧ c ≠ '-') = true := by decide
  exact of_decide_eq_true (List.all_eq_true.mp hall check (checkCharacter_mem h))

/-- The digits of a padded number are decimal digits. -/
theorem zeroPad_digits (width n : ℕ) : (zeroPad width n).toList.all (fun c => (digitValue? c).isSome) = true :=
  List.all_eq_true.mpr fun _ hc => digitValue?_isSome (isDigit_of_mem_zeroPad hc)

/-- A formatted serial has a year and a sequence that fit their groups, and ends in its check character. -/
theorem formatSerial_ok {productCategory serial : String} {year sequence : ℤ}
    (h : formatSerial productCategory year sequence = .ok serial) :
    year.toNat < 10 ^ 4 ∧ sequence.toNat < 10 ^ 10 ∧ ∃ (code : String) (check : Char),
      categoryCode productCategory = .ok code ∧
      checkCharacter ("NG-" ++ code ++ "-" ++ zeroPad 4 year.toNat ++ "-" ++ zeroPad 10 sequence.toNat).toList =
        .ok check ∧
      serial = "NG-" ++ code ++ "-" ++ zeroPad 4 year.toNat ++ "-" ++ zeroPad 10 sequence.toNat ++ "-" ++
        String.ofList [check] := by
  by_cases hpositive : sequence ≤ 0
  · simp [formatSerial, hpositive, bind, Except.bind] at h
  by_cases hcapacity : sequence > 9999999999
  · simp [formatSerial, hpositive, hcapacity, bind, Except.bind] at h
  by_cases hyear : 2000 ≤ year ∧ year ≤ 9999
  · rw [formatSerial, if_neg hpositive, if_neg hcapacity, if_neg (not_not.mpr hyear)] at h
    simp only [Except.bind_ok] at h
    obtain ⟨code, hcode, check, hcheck, hserial⟩ := h
    exact ⟨by omega, by omega, code, check, hcode, hcheck, (Except.ok.inj hserial).symm⟩
  · simp [formatSerial, hpositive, hcapacity, hyear, bind, Except.bind] at h

/-- A formatted serial parses to the code of its category and the numbers its digits write. -/
theorem parseSerial_formatSerial {productCategory serial : String} {year sequence : ℤ}
    (h : formatSerial productCategory year sequence = .ok serial) :
    ∃ code, categoryCode productCategory = .ok code ∧ parseSerial serial =
      .ok ⟨code, digitsValue (zeroPad 4 year.toNat).toList, digitsValue (zeroPad 10 sequence.toNat).toList⟩ := by
  obtain ⟨hyear, hsequence, code, check, hcode, hcheck, rfl⟩ := formatSerial_ok h
  obtain ⟨hlength, hletters⟩ := categoryCode_ok hcode
  obtain ⟨hclass, hdash⟩ := checkCharacter_ok hcheck
  have htext : ("NG-" ++ code ++ "-" ++ zeroPad 4 year.toNat ++ "-" ++ zeroPad 10 sequence.toNat ++ "-" ++
      String.ofList [check]).toList =
      ("NG-" ++ code ++ "-" ++ zeroPad 4 year.toNat ++ "-" ++ zeroPad 10 sequence.toNat).toList ++ ['-', check] := by
    simp only [String.toList_append, String.toList_ofList, List.append_assoc]
    rfl
  have hmatch : serialMatch ("NG-" ++ code ++ "-" ++ zeroPad 4 year.toNat ++ "-" ++ zeroPad 10 sequence.toNat ++
      "-" ++ String.ofList [check]).toList =
      some ⟨code.toList, (zeroPad 4 year.toNat).toList, (zeroPad 10 sequence.toNat).toList, check⟩ := by
    rw [htext]
    simp only [String.toList_append]
    exact serialMatch_groups hlength (zeroPad_length (by decide) hyear) (zeroPad_length (by decide) hsequence)
      hletters (zeroPad_digits _ _) (zeroPad_digits _ _) hclass
  have hbefore : beforeLastDash ("NG-" ++ code ++ "-" ++ zeroPad 4 year.toNat ++ "-" ++ zeroPad 10 sequence.toNat ++
      "-" ++ String.ofList [check]).toList =
      ("NG-" ++ code ++ "-" ++ zeroPad 4 year.toNat ++ "-" ++ zeroPad 10 sequence.toNat).toList := by
    rw [htext]
    exact beforeLastDash_append hdash
  refine ⟨code, hcode, ?_⟩
  unfold parseSerial
  rw [hmatch]
  dsimp only
  rw [hbefore, hcheck]
  simp only [bind, Except.bind, ne_eq, not_true_eq_false, if_false, String.ofList_toList]
  rfl

/-- A formatted serial is valid. -/
theorem isValidSerial_formatSerial {productCategory serial : String} {year sequence : ℤ}
    (h : formatSerial productCategory year sequence = .ok serial) : isValidSerial serial = true := by
  obtain ⟨code, -, hparse⟩ := parseSerial_formatSerial h
  rw [isValidSerial, hparse]

end TaxStamp
