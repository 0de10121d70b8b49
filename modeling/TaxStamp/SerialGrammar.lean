import TaxStamp.SerialCodec
import TaxStamp.Lib.Checksum
import Mathlib.Data.ZMod.Basic

/-!
# The accepted serials

A serial that parses has the groups of the pattern at their positions, with digits and
letters of the check alphabet, and possibly a newline at its end, which the pattern does
not exclude. Its check character makes a weighted sum over all its letters and digits
vanish modulo 34. From these facts follow what the check character detects, which texts
parse to the same content, and that formatted serials are read back.
-/

namespace TaxStamp

open Lib Lib.AlongLists

/-! ### The check sum -/

/-- What a character adds to the check sum under a factor. -/
def weight (factor : ℕ) (c : Char) : ZMod 34 :=
  (factor * alphabet.idxOf c / alphabet.length + factor * alphabet.idxOf c % alphabet.length : ℕ)

/-- The check sum of a whole text; its last character has factor one and dashes are skipped. -/
def serialSum (text : List Char) : ZMod 34 := altSum (weight 1) (weight 2) (text.reverse.filter (· ≠ '-'))

/-- A sum exists for texts over the alphabet alone, and then adds up the weights. -/
theorem luhnSum_ok {text : List Char} {factor factor' total sum : ℕ}
    (hfactor : factor = 1 ∧ factor' = 2 ∨ factor = 2 ∧ factor' = 1) (h : luhnSum text factor total = .ok sum) :
    (∀ c ∈ text, c = '-' ∨ c ∈ alphabet) ∧
      (sum : ZMod 34) = total + altSum (weight factor) (weight factor') (text.filter (· ≠ '-')) := by
  induction text generalizing factor factor' total with
  | nil =>
    rw [luhnSum] at h
    simp [altSum, Except.ok.inj h]
  | cons c text ih =>
    rw [luhnSum] at h
    by_cases hdash : c = '-'
    · rw [if_pos hdash] at h
      obtain ⟨hmem, hsum⟩ := ih hfactor h
      refine ⟨by simpa [hdash] using hmem, ?_⟩
      rw [hsum, hdash, List.filter_cons_of_neg (by simp)]
    by_cases hletter : c ∈ alphabet
    · rw [if_neg hdash, if_pos hletter] at h
      have hturn : (if factor = 2 then 1 else 2) = factor' := by
        obtain ⟨rfl, rfl⟩ | ⟨rfl, rfl⟩ := hfactor <;> rfl
      rw [hturn] at h
      obtain ⟨hmem, hsum⟩ := ih (hfactor.symm.imp And.symm And.symm) h
      refine ⟨by simpa [hletter] using hmem, ?_⟩
      have hcast := Nat.cast_add (R := ZMod 34) total
        (factor * alphabet.idxOf c / alphabet.length + factor * alphabet.idxOf c % alphabet.length)
      rw [hsum, List.filter_cons_of_pos (by simpa using hdash), altSum, hcast, add_assoc]
      rfl
    · rw [if_neg hdash, if_neg hletter] at h
      cases h

/-- Every text over the alphabet has a sum. -/
theorem luhnSum_total {text : List Char} (h : ∀ c ∈ text, c = '-' ∨ c ∈ alphabet) (factor total : ℕ) :
    ∃ sum, luhnSum text factor total = .ok sum := by
  induction text generalizing factor total with
  | nil => exact ⟨total, rfl⟩
  | cons c text ih =>
    have hrest := ih fun d hd => h d (List.mem_cons_of_mem c hd)
    rw [luhnSum]
    by_cases hdash : c = '-'
    · rw [if_pos hdash]
      exact hrest _ _
    · rw [if_neg hdash, if_pos ((h c List.mem_cons_self).resolve_left hdash)]
      exact hrest _ _

/-- The letter at an index below 34 weighs its index. -/
theorem weight_one_alphabet : ∀ i < 34, weight 1 (alphabet.getD i '0') = i := by decide

/-- A payload with its check character adds up to zero. -/
theorem serialSum_check {payload : List Char} {check : Char} (h : checkCharacter payload = .ok check) :
    (∀ c ∈ payload ++ ['-', check], c = '-' ∨ c ∈ alphabet) ∧ serialSum (payload ++ ['-', check]) = 0 := by
  have hdash := (checkCharacter_ok h).2
  have hletter := checkCharacter_mem h
  simp only [checkCharacter, Except.bind_ok] at h
  obtain ⟨total, htotal, hcheck⟩ := h
  obtain ⟨hmem, hsum⟩ := luhnSum_ok (.inr ⟨rfl, rfl⟩) htotal
  refine ⟨fun c hc => ?_, ?_⟩
  · rcases List.mem_append.mp hc with hc | hc
    · exact hmem c (List.mem_reverse.mpr hc)
    · have hc : c = '-' ∨ c = check := by simpa using hc
      rcases hc with rfl | rfl
      · exact .inl rfl
      · exact .inr hletter
  · have hreverse : (payload ++ ['-', check]).reverse.filter (· ≠ '-') = check :: payload.reverse.filter (· ≠ '-') := by
      simp [hdash]
    have hlength : alphabet.length = 34 := rfl
    have hweight : weight 1 check = ((34 - total % 34) % 34 : ℕ) := by
      rw [← Except.ok.inj hcheck, hlength]
      exact weight_one_alphabet _ (Nat.mod_lt _ (by decide))
    rw [Nat.cast_zero, zero_add] at hsum
    rw [serialSum, hreverse, altSum, ← hsum, hweight, ← Nat.cast_add, ZMod.natCast_eq_zero_iff]
    omega

/-! ### The shape of a valid serial -/

/-- The text of a serial with its groups. -/
def SerialMatch.text (m : SerialMatch) : List Char :=
  ['N', 'G', '-'] ++ m.cat ++ ['-'] ++ m.year ++ ['-'] ++ m.seq ++ ['-', m.check]

/-- The groups of a match fill the text, up to a newline at the end. -/
theorem serialMatch_some {serial : List Char} {m : SerialMatch} (h : serialMatch serial = some m) :
    (serial = m.text ∨ serial = m.text ++ ['\n']) ∧ m.cat.length = 3 ∧ m.year.length = 4 ∧ m.seq.length = 10 ∧
      (∀ c ∈ m.cat, 'A' ≤ c ∧ c ≤ 'Z') ∧ (∀ c ∈ m.year, (digitValue? c).isSome = true) ∧
      ∀ c ∈ m.seq, (digitValue? c).isSome = true := by
  unfold serialMatch at h
  dsimp only at h
  split at h
  · cases h
  · rename_i check tail hlast
    split at h
    · rename_i hgroups
      obtain ⟨hng, hcat, hdash₁, hyear, hdash₂, hseq, hdash₃, -, htail⟩ := hgroups
      obtain rfl := Option.some.inj h
      have hlength : 23 < serial.length := by
        have hdrop := congrArg List.length hlast
        rw [List.length_drop, List.length_cons] at hdrop
        omega
      have hsplit : serial = serial.take 3 ++ ((serial.drop 3).take 3 ++ ((serial.drop 6).take 1 ++
          ((serial.drop 7).take 4 ++ ((serial.drop 11).take 1 ++ ((serial.drop 12).take 10 ++
          ((serial.drop 22).take 1 ++ serial.drop 23)))))) := by
        have htake : ∀ i n, (serial.drop i).take n ++ serial.drop (i + n) = serial.drop i := by
          intro i n
          rw [← List.drop_drop, List.take_append_drop]
        rw [htake 22 1, htake 12 10, htake 11 1, htake 7 4, htake 6 1, htake 3 3, List.take_append_drop]
      refine ⟨?_, ?_, ?_, ?_, ?_, ?_, ?_⟩
      · rw [hng, hdash₁, hdash₂, hdash₃, hlast] at hsplit
        rcases htail with rfl | rfl
        · exact .inl (hsplit.trans (by simp [SerialMatch.text]))
        · exact .inr (hsplit.trans (by simp [SerialMatch.text]))
      · simp only [List.length_take, List.length_drop]
        omega
      · simp only [List.length_take, List.length_drop]
        omega
      · simp only [List.length_take, List.length_drop]
        omega
      · exact fun c hc => of_decide_eq_true (List.all_eq_true.mp hcat c hc)
      · exact fun c hc => List.all_eq_true.mp hyear c hc
      · exact fun c hc => List.all_eq_true.mp hseq c hc
    · cases h

/-- A decimal digit of the alphabet is an ASCII digit. -/
theorem isDigit_of_alphabet {c : Char} (hdigit : (digitValue? c).isSome = true) (hletter : c ∈ alphabet) :
    c.isDigit = true := by
  have hall : ∀ c ∈ alphabet, (digitValue? c).isSome = true → c.isDigit = true := by decide
  exact hall c hletter hdigit

/-- The text before the last dash of a text and its newline. -/
theorem beforeLastDash_newline {payload : List Char} {check : Char} (h : check ≠ '-') :
    beforeLastDash (payload ++ ['-', check] ++ ['\n']) = payload := by
  have hreverse : (payload ++ ['-', check] ++ ['\n']).reverse = '\n' :: check :: '-' :: payload.reverse := by simp
  rw [beforeLastDash, hreverse, List.dropWhile_cons_of_pos (by simp), List.dropWhile_cons_of_pos (by simpa using h),
    List.dropWhile_cons_of_neg (by simp), List.drop_one, List.tail_cons, List.reverse_reverse]

/-- The payload of a serial with its groups. -/
def SerialMatch.payload (m : SerialMatch) : List Char :=
  ['N', 'G', '-'] ++ m.cat ++ ['-'] ++ m.year ++ ['-'] ++ m.seq

/-- The text is the payload with the check character. -/
theorem SerialMatch.text_eq (m : SerialMatch) : m.text = m.payload ++ ['-', m.check] := rfl

/-- A serial that parses has letters and digits of the alphabet in its groups, the check character of its payload, and
at most a newline after it. -/
theorem parseSerial_ok {serial : String} {p : ParsedSerial} (h : parseSerial serial = .ok p) :
    ∃ m : SerialMatch, (serial.toList = m.text ∨ serial.toList = m.text ++ ['\n']) ∧
      m.cat.length = 3 ∧ m.year.length = 4 ∧ m.seq.length = 10 ∧ (∀ c ∈ m.cat, 'A' ≤ c ∧ c ≤ 'Z') ∧
      (∀ c ∈ m.year, c.isDigit = true) ∧ (∀ c ∈ m.seq, c.isDigit = true) ∧
      checkCharacter m.payload = .ok m.check ∧
      p = ⟨String.ofList m.cat, digitsValue m.year, digitsValue m.seq⟩ := by
  unfold parseSerial at h
  split at h
  · cases h
  · rename_i m hmatch
    simp only [Except.bind_ok] at h
    obtain ⟨check, hcheck, hrest⟩ := h
    by_cases hsame : check = m.check
    · obtain ⟨htext, hcat, hyear, hseq, hletters, hyearDigits, hseqDigits⟩ := serialMatch_some hmatch
      have hdash : m.check ≠ '-' := hsame ▸ (checkCharacter_ok hcheck).2
      have hpayload : beforeLastDash serial.toList = m.payload := by
        rcases htext with htext | htext
        · rw [htext, m.text_eq, beforeLastDash_append hdash]
        · rw [htext, m.text_eq, beforeLastDash_newline hdash]
      rw [hpayload, hsame] at hcheck
      have hmem := (serialSum_check hcheck).1
      have hletter : ∀ c, c ∈ m.year ∨ c ∈ m.seq → (digitValue? c).isSome = true → c ∈ alphabet := by
        intro c hc hdigit
        have hpayload : c ∈ m.payload := by
          simp only [SerialMatch.payload, List.mem_append]
          rcases hc with hc | hc
          · exact .inl (.inl (.inr hc))
          · exact .inr hc
        refine (hmem c (List.mem_append_left _ hpayload)).resolve_left ?_
        rintro rfl
        exact absurd hdigit (by decide)
      refine ⟨m, htext, hcat, hyear, hseq, hletters, ?_, ?_, hcheck, ?_⟩
      · exact fun c hc => isDigit_of_alphabet (hyearDigits c hc) (hletter c (.inl hc) (hyearDigits c hc))
      · exact fun c hc => isDigit_of_alphabet (hseqDigits c hc) (hletter c (.inr hc) (hseqDigits c hc))
      · simp only [hsame, ne_eq, not_true_eq_false, if_false] at hrest
        exact (Except.ok.inj hrest).symm
    · simp [hsame, bind, Except.bind] at hrest

/-! ### What the check character detects -/

/-- The characters that may stand at each position of a serial. -/
def serialPattern : List (Char → Bool) :=
  [(· == 'N'), (· == 'G'), (· == '-')] ++ List.replicate 3 (fun c => decide ('A' ≤ c ∧ c ≤ 'Z')) ++ [(· == '-')] ++
    List.replicate 4 Char.isDigit ++ [(· == '-')] ++ List.replicate 10 Char.isDigit ++
    [(· == '-'), fun c => decide (c ∈ alphabet)]

/-- A serial that parses is valid. -/
theorem isValidSerial_of_parse {serial : String} {p : ParsedSerial} (h : parseSerial serial = .ok p) :
    isValidSerial serial = true := by
  rw [isValidSerial, h]

/-- The shape of a valid serial: the text follows the pattern over the check alphabet and adds up to zero, and only a
newline may follow. -/
structure SerialShape (text tail : List Char) : Prop where
  pattern : List.Forall₂ (fun p c => p c = true) serialPattern text
  letters : ∀ c ∈ text, c = '-' ∨ c ∈ alphabet
  sum : serialSum text = 0
  tail : tail = [] ∨ tail = ['\n']

/-- Valid serials have the shape. -/
theorem shape_of_isValidSerial {serial : String} (h : isValidSerial serial = true) :
    ∃ text tail, serial.toList = text ++ tail ∧ SerialShape text tail := by
  unfold isValidSerial at h
  split at h
  · rename_i p hparse
    obtain ⟨m, htext, hcat, hyear, hseq, hletters, hyearDigits, hseqDigits, hcheck, -⟩ := parseSerial_ok hparse
    have hpattern : List.Forall₂ (fun p c => p c = true) serialPattern m.text := by
      obtain ⟨cat, year, seq, check⟩ := m
      have hmem := checkCharacter_mem hcheck
      match cat, hcat, year, hyear, seq, hseq with
      | [c₁, c₂, c₃], _, [y₁, y₂, y₃, y₄], _, [s₁, s₂, s₃, s₄, s₅, s₆, s₇, s₈, s₉, s₁₀], _ =>
        simp only [List.forall_mem_cons] at hletters hyearDigits hseqDigits
        simp [serialPattern, SerialMatch.text, List.replicate_succ, hletters, hyearDigits, hseqDigits, hmem]
    obtain ⟨hmem, hsum⟩ := serialSum_check hcheck
    rcases htext with htext | htext
    · exact ⟨m.text, [], by rw [htext, List.append_nil], hpattern, hmem, hsum, .inl rfl⟩
    · exact ⟨m.text, ['\n'], htext, hpattern, hmem, hsum, .inr rfl⟩
  · cases h

namespace SerialShape

variable {text tail : List Char}

/-- The pattern has 24 positions. -/
theorem length (h : SerialShape text tail) : text.length = 24 := h.pattern.length_eq.symm

/-- The character at a position is one that the pattern allows there. -/
theorem at_position (h : SerialShape text tail) {before after : List Char} {c : Char} (hsplit : text = before ++ c :: after) :
    ∃ p, serialPattern[before.length]? = some p ∧ p c = true := by
  have hlt : before.length < serialPattern.length := by
    rw [h.pattern.length_eq, hsplit, List.length_append, List.length_cons]
    omega
  refine ⟨serialPattern[before.length], List.getElem?_eq_getElem hlt, ?_⟩
  have hget := h.pattern.get hlt (by rw [← h.pattern.length_eq]; exact hlt)
  simpa [hsplit] using hget

/-- A character other than the newline stands in the text. -/
theorem split (h : SerialShape text tail) {before after : List Char} {c : Char} (hc : c ≠ '\n')
    (hsplit : text ++ tail = before ++ c :: after) : ∃ rest, after = rest ++ tail ∧ text = before ++ c :: rest := by
  rcases h.tail with rfl | rfl
  · exact ⟨after, by simp, by simpa using hsplit⟩
  · rcases List.eq_nil_or_concat after with rfl | ⟨rest, last, rfl⟩
    · obtain ⟨-, hlast⟩ := List.append_inj' hsplit rfl
      exact absurd (List.cons.inj hlast).1.symm hc
    · rw [List.concat_eq_append, ← List.cons_append, ← List.append_assoc] at hsplit
      obtain ⟨htext, hlast⟩ := List.append_inj' hsplit rfl
      exact ⟨rest, by rw [hlast, List.concat_eq_append], htext⟩

end SerialShape

/-- The factors one and two take all letters of the alphabet to different weights. -/
theorem weight_injOn : ∀ a ∈ alphabet, ∀ b ∈ alphabet,
    (weight 1 a = weight 1 b → a = b) ∧ (weight 2 a = weight 2 b → a = b) := by decide

/-- Only zero and `Z` can trade places under the two factors. -/
theorem weight_exchange : ∀ a ∈ alphabet, ∀ b ∈ alphabet,
    (weight 1 a + weight 2 b = weight 1 b + weight 2 a → a = b ∨ (a = '0' ∧ b = 'Z') ∨ (a = 'Z' ∧ b = '0')) ∧
    (weight 2 a + weight 1 b = weight 2 b + weight 1 a → a = b ∨ (a = '0' ∧ b = 'Z') ∨ (a = 'Z' ∧ b = '0')) := by
  decide

/-- A position of the pattern allows dashes or letters of the alphabet, not both. -/
theorem serialPattern_dash : ∀ p ∈ serialPattern, p '-' = true → ∀ c ∈ alphabet, p c = false := by decide

/-- Only the last position of the pattern allows both zero and `Z`. -/
theorem serialPattern_zero_z : ∀ i < 23, ∀ p ∈ serialPattern[i]?, ¬(p '0' = true ∧ p 'Z' = true) := by decide

/-- Two texts of the shape that differ in one character at most are equal. -/
theorem SerialShape.replace {before after tail tail' : List Char} {a c : Char}
    (h : SerialShape (before ++ a :: after) tail) (h' : SerialShape (before ++ c :: after) tail') : a = c := by
  obtain ⟨p, hp, ha⟩ := h.at_position rfl
  obtain ⟨q, hq, hc⟩ := h'.at_position rfl
  obtain rfl := Option.some.inj (hp.symm.trans hq)
  have hmem := List.mem_of_getElem? hp
  have hsum := h.sum.trans h'.sum.symm
  simp only [serialSum, List.reverse_append, List.reverse_cons, List.append_assoc, List.filter_append,
    List.singleton_append, List.filter_cons] at hsum
  rcases h.letters a (by simp) with rfl | hletter
  · -- a dash stands at a position of its own
    rcases h'.letters c (by simp) with rfl | hletter'
    · rfl
    · exact absurd hc (by simp [serialPattern_dash p hmem ha c hletter'])
  · rcases h'.letters c (by simp) with rfl | hletter'
    · exact absurd ha (by simp [serialPattern_dash p hmem hc a hletter])
    · have hdash : ∀ b ∈ alphabet, b ≠ '-' := by decide
      rw [if_pos (by simpa using hdash a hletter), if_pos (by simpa using hdash c hletter')] at hsum
      obtain ⟨hone, htwo⟩ := weight_injOn a hletter c hletter'
      exact altSum_replace hone htwo hsum

/-- Two texts of the shape in which two letters have traded places across dashes are equal. -/
theorem SerialShape.exchange {before dashes after tail tail' : List Char} {a b : Char}
    (h : SerialShape (before ++ a :: (dashes ++ b :: after)) tail)
    (h' : SerialShape (before ++ b :: (dashes ++ a :: after)) tail') (hdashes : ∀ c ∈ dashes, c = '-')
    (ha : a ≠ '-') (hb : b ≠ '-') : a = b := by
  have hnone : dashes.reverse.filter (· ≠ '-') = [] := by
    rw [List.filter_eq_nil_iff]
    intro c hc
    simp [hdashes c (List.mem_reverse.mp hc)]
  have hskip : ∀ x y : Char, x ≠ '-' → y ≠ '-' → (before ++ x :: (dashes ++ y :: after)).reverse.filter (· ≠ '-') =
      after.reverse.filter (· ≠ '-') ++ y :: x :: before.reverse.filter (· ≠ '-') := by
    intro x y hx hy
    simp only [List.reverse_append, List.reverse_cons, List.append_assoc, List.filter_append, List.cons_append, hnone,
      List.nil_append, List.filter_cons]
    rw [if_pos (by simpa using hy), if_pos (by simpa using hx)]
  have hsum := h.sum.trans h'.sum.symm
  rw [serialSum, serialSum, hskip a b ha hb, hskip b a hb ha] at hsum
  have hletter := (h.letters a (by simp)).resolve_left ha
  have hletter' := (h.letters b (by simp)).resolve_left hb
  obtain ⟨hone, htwo⟩ := weight_exchange b hletter' a hletter
  -- zero and `Z` are both allowed only at the last position, which has no right neighbour
  obtain ⟨p, hp, hpa⟩ := h.at_position rfl
  obtain ⟨q, hq, hqb⟩ := h'.at_position rfl
  obtain rfl := Option.some.inj (hp.symm.trans hq)
  have hposition : before.length < 23 := by
    have hlength := h.length
    simp only [List.length_append, List.length_cons] at hlength
    omega
  have hboth := serialPattern_zero_z before.length hposition p hp
  rcases altSum_exchange hone htwo hsum with heq | ⟨rfl, rfl⟩ | ⟨rfl, rfl⟩
  · exact heq.symm
  · exact absurd ⟨hqb, hpa⟩ hboth
  · exact absurd ⟨hpa, hqb⟩ hboth

/-- The check character detects every replaced character and every exchange of neighbours: from a serial that parses,
replacing one character by another, or exchanging two different characters other than dashes and the newline with
nothing but dashes between them, gives a serial that is refused. -/
theorem isValidSerial_detects (serial : String) (p : ParsedSerial) (h : parseSerial serial = .ok p) :
    (∀ (i : ℕ) (hi : i < serial.toList.length) (c : Char), c ≠ serial.toList[i] →
      isValidSerial (String.ofList (serial.toList.set i c)) = false) ∧
    (∀ (before dashes after : List Char) (a b : Char), serial.toList = before ++ a :: (dashes ++ b :: after) →
      (∀ c ∈ dashes, c = '-') → a ∉ ['-', '\n'] → b ∉ ['-', '\n'] → a ≠ b →
      isValidSerial (String.ofList (before ++ b :: (dashes ++ a :: after))) = false) := by
  obtain ⟨text, tail, hserial, hshape⟩ := shape_of_isValidSerial (isValidSerial_of_parse h)
  refine ⟨fun i hi c hne => ?_, fun before dashes after a b hsplit hdashes ha hb hne => ?_⟩
  · rw [Bool.eq_false_iff]
    intro hvalid
    obtain ⟨text', tail', hserial', hshape'⟩ := shape_of_isValidSerial hvalid
    rw [String.toList_ofList, hserial] at hserial'
    simp only [hserial] at hi hne
    have hlength := hshape.length.trans hshape'.length.symm
    by_cases htext : i < text.length
    · -- the text follows the pattern before and after
      rw [List.set_append_left _ _ htext] at hserial'
      obtain ⟨htext', -⟩ := List.append_inj hserial' (by rw [List.length_set, hlength])
      rw [List.getElem_append_left htext] at hne
      rw [List.set_eq_take_append_cons_drop, if_pos htext] at htext'
      have hsplit : text = text.take i ++ text[i] :: text.drop (i + 1) := by simp
      rw [hsplit] at hshape
      rw [← htext'] at hshape'
      exact hne (hshape.replace hshape').symm
    · -- the newline is the only character that may follow the text
      rw [List.set_append_right _ _ (by omega)] at hserial'
      obtain ⟨-, htail'⟩ := List.append_inj hserial' hlength
      rw [List.getElem_append_right (by omega)] at hne
      rw [List.length_append] at hi
      rcases hshape.tail with rfl | rfl
      · simp at hi
        omega
      · have hi' : i - text.length = 0 := by simp at hi; omega
        have hc : [c] = tail' := by simpa [hi'] using htail'
        rcases hshape'.tail with rfl | rfl
        · cases hc
        · simp [hi'] at hne
          exact hne (List.cons.inj hc).1
  · rw [Bool.eq_false_iff]
    intro hvalid
    obtain ⟨text', tail', hserial', hshape'⟩ := shape_of_isValidSerial hvalid
    rw [String.toList_ofList] at hserial'
    simp only [List.mem_cons, List.not_mem_nil, or_false, not_or] at ha hb
    -- both characters stand in the text, and the same characters follow them
    have hsplit : text ++ tail = (before ++ a :: dashes) ++ b :: after := by rw [← hserial, hsplit]; simp
    have hsplit' : text' ++ tail' = (before ++ b :: dashes) ++ a :: after := by rw [← hserial']; simp
    obtain ⟨rest, hafter, rfl⟩ := hshape.split hb.2 hsplit
    obtain ⟨rest', hafter', rfl⟩ := hshape'.split ha.2 hsplit'
    have hlength := hshape.length.trans hshape'.length.symm
    obtain ⟨rfl, -⟩ := List.append_inj (hafter.symm.trans hafter') (by simpa using hlength)
    rw [List.append_assoc, List.cons_append] at hshape hshape'
    exact hne (hshape.exchange hshape' hdashes ha.1 hb.1)

/-- A serial for which both kinds of errors are refused. -/
theorem isValidSerial_detects_sample : parseSerial "NG-ALC-2026-0000000001-T" = .ok ⟨"ALC", 2026, 1⟩ ∧
    isValidSerial (String.ofList ("NG-ALC-2026-0000000001-T".toList.set 21 '7')) = false ∧
    isValidSerial "NG-ALC-2026-000000000T-1" = false := by
  have hparse : parseSerial "NG-ALC-2026-0000000001-T" = .ok ⟨"ALC", 2026, 1⟩ := by decide
  obtain ⟨hreplace, hexchange⟩ := isValidSerial_detects _ _ hparse
  exact ⟨hparse, hreplace 21 (by decide) '7' (by decide),
    hexchange "NG-ALC-2026-000000000".toList ['-'] [] '1' 'T' (by decide) (by decide) (by decide) (by decide) (by decide)⟩

/-! ### Canonical serials -/

/-- The code points of the ASCII digits. -/
theorem digit_bounds {c : Char} (h : c.isDigit = true) : 48 ≤ c.toNat ∧ c.toNat ≤ 57 := Char.isDigit_iff_toNat.mp h

/-- The value of an ASCII digit. -/
theorem digitValue?_isDigit {c : Char} (h : c.isDigit = true) : digitValue? c = some (c.toNat - 48) := by
  have hzeros : unicodeDigitZeros = 0x30 :: unicodeDigitZeros.tail := rfl
  have hfirst : decide (0x30 ≤ c.toNat ∧ c.toNat < 0x30 + 10) = true := by
    rw [decide_eq_true_eq]
    exact ⟨(digit_bounds h).1, Nat.lt_succ_of_le (digit_bounds h).2⟩
  rw [digitValue?, hzeros,
    List.find?_cons_of_pos (p := fun first => decide (first ≤ c.toNat ∧ c.toNat < first + 10)) hfirst, Option.map_some]

/-- The number written by ASCII digits. -/
theorem digitsValue_eq {text : List Char} (h : ∀ c ∈ text, c.isDigit = true) : digitsValue text = Nat.ofDigitChars 10 text 0 := by
  rw [digitsValue, Nat.ofDigitChars_eq_foldl]
  apply List.foldl_ext
  intro acc c hc
  rw [digitValue?_isDigit (h c hc), Option.getD_some, Nat.mul_comm]
  rfl

/-- A padded number is read back. -/
theorem digitsValue_zeroPad (width n : ℕ) : digitsValue (zeroPad width n).toList = n := by
  rw [digitsValue_eq fun c hc => isDigit_of_mem_zeroPad hc, zeroPad, String.toList_ofList, Nat.toString_eq_repr,
    Nat.toList_repr, Nat.ofDigitChars_append, Nat.ofDigitChars_replicate_zero, Nat.mul_zero, Nat.ofDigitChars_ten_toDigits]

/-- Another digit at the end. -/
theorem digitsValue_concat (text : List Char) {c : Char} (h : c.isDigit = true) :
    digitsValue (text ++ [c]) = digitsValue text * 10 + (c.toNat - 48) := by
  rw [digitsValue, List.foldl_append, List.foldl_cons, List.foldl_nil, digitValue?_isDigit h, Option.getD_some, ← digitsValue]

/-- A number is below the power of ten of its number of digits. -/
theorem digitsValue_lt {text : List Char} (h : ∀ c ∈ text, c.isDigit = true) : digitsValue text < 10 ^ text.length := by
  induction text using List.reverseRecOn with
  | nil => simp [digitsValue]
  | append_singleton text c ih =>
    have hc := digit_bounds (h c (by simp))
    have hlt := ih fun d hd => h d (by simp [hd])
    rw [digitsValue_concat text (h c (by simp)), List.length_append, List.length_singleton, Nat.pow_succ]
    omega

/-- Texts of digits of the same length with the same value are equal. -/
theorem digitsValue_inj {text text' : List Char} (h : ∀ c ∈ text, c.isDigit = true) (h' : ∀ c ∈ text', c.isDigit = true)
    (hlength : text.length = text'.length) (hvalue : digitsValue text = digitsValue text') : text = text' := by
  induction text using List.reverseRecOn generalizing text' with
  | nil => exact (List.length_eq_zero_iff.mp hlength.symm).symm
  | append_singleton text c ih =>
    rcases List.eq_nil_or_concat text' with rfl | ⟨rest, d, rfl⟩
    · simp at hlength
    · rw [List.concat_eq_append] at h' hlength hvalue ⊢
      have hc := digit_bounds (h c (by simp))
      have hd := digit_bounds (h' d (by simp))
      rw [digitsValue_concat text (h c (by simp)), digitsValue_concat rest (h' d (by simp))] at hvalue
      have hrest : text = rest := ih (fun e he => h e (by simp [he])) (fun e he => h' e (by simp [he]))
        (by simpa using hlength) (by omega)
      have hlast : c = d := Char.toNat_inj.mp (by omega)
      rw [hrest, hlast]

/-- Padding the value of digits gives the digits. -/
theorem zeroPad_digitsValue {text : List Char} (h : ∀ c ∈ text, c.isDigit = true) (hne : 0 < text.length) :
    (zeroPad text.length (digitsValue text)).toList = text :=
  digitsValue_inj (fun _ hc => isDigit_of_mem_zeroPad hc) h (zeroPad_length hne (digitsValue_lt h))
    (digitsValue_zeroPad _ _)

/-- The canonical serial of a content with a check character. -/
def ParsedSerial.canonical (p : ParsedSerial) (check : Char) : String :=
  "NG-" ++ p.categoryCode ++ "-" ++ zeroPad 4 p.year ++ "-" ++ zeroPad 10 p.sequence ++ "-" ++ String.ofList [check]

/-- Whether a serial is the canonical one of a content: the check character is that of the part before it. -/
def IsCanonical (serial : String) (p : ParsedSerial) : Prop :=
  ∃ check, checkCharacter ("NG-" ++ p.categoryCode ++ "-" ++ zeroPad 4 p.year ++ "-" ++ zeroPad 10 p.sequence).toList =
    .ok check ∧ serial = p.canonical check

/-- A serial that parses is the canonical one of its content, or that one with a newline. -/
theorem canonical_of_parse {serial : String} {p : ParsedSerial} (h : parseSerial serial = .ok p) :
    ∃ check, checkCharacter ("NG-" ++ p.categoryCode ++ "-" ++ zeroPad 4 p.year ++ "-" ++ zeroPad 10 p.sequence).toList =
        .ok check ∧ (serial = p.canonical check ∨ serial = p.canonical check ++ "\n") := by
  obtain ⟨m, htext, -, hyear, hseq, -, hyearDigits, hseqDigits, hcheck, rfl⟩ := parseSerial_ok h
  have hyearText : (zeroPad 4 (digitsValue m.year)).toList = m.year := by
    rw [← hyear]
    exact zeroPad_digitsValue hyearDigits (by omega)
  have hseqText : (zeroPad 10 (digitsValue m.seq)).toList = m.seq := by
    rw [← hseq]
    exact zeroPad_digitsValue hseqDigits (by omega)
  have hpayload : ("NG-" ++ String.ofList m.cat ++ "-" ++ zeroPad 4 (digitsValue m.year) ++ "-" ++
      zeroPad 10 (digitsValue m.seq)).toList = m.payload := by
    simp only [String.toList_append, String.toList_ofList, hyearText, hseqText]
    rfl
  have hcanonical : (ParsedSerial.canonical ⟨String.ofList m.cat, digitsValue m.year, digitsValue m.seq⟩ m.check).toList =
      m.text := by
    rw [ParsedSerial.canonical, String.toList_append, String.toList_append, hpayload, m.text_eq]
    simp
  refine ⟨m.check, by rw [hpayload, hcheck], ?_⟩
  rcases htext with htext | htext
  · exact .inl (String.toList_inj.mp (htext.trans hcanonical.symm))
  · refine .inr (String.toList_inj.mp ?_)
    rw [htext, String.toList_append, hcanonical]
    rfl

/-- A canonical serial does not end in a newline. -/
theorem canonical_getLast {p : ParsedSerial} {check : Char}
    (h : checkCharacter ("NG-" ++ p.categoryCode ++ "-" ++ zeroPad 4 p.year ++ "-" ++ zeroPad 10 p.sequence).toList =
      .ok check) : (p.canonical check).toList.getLast? ≠ some '\n' := by
  have hletter := checkCharacter_mem h
  rw [ParsedSerial.canonical, String.toList_append, String.toList_ofList, List.getLast?_concat]
  intro hlast
  rw [Option.some.inj hlast] at hletter
  exact absurd hletter (by decide)

/-- A serial that parses is canonical exactly when it does not end in a newline, and two serials with the same content
are the same exactly when both or neither do. -/
theorem parseSerial_canonical_iff (serial : String) (p : ParsedSerial) (h : parseSerial serial = .ok p) :
    (IsCanonical serial p ↔ serial.toList.getLast? ≠ some '\n') ∧
    ∀ serial', parseSerial serial' = .ok p →
      (serial = serial' ↔ (serial.toList.getLast? = some '\n' ↔ serial'.toList.getLast? = some '\n')) := by
  obtain ⟨check, hcheck, hserial⟩ := canonical_of_parse h
  have hlast := canonical_getLast hcheck
  have hnewline : (p.canonical check ++ "\n").toList.getLast? = some '\n' := by
    rw [String.toList_append]
    exact List.getLast?_concat
  refine ⟨⟨?_, fun hend => ?_⟩, fun serial' h' => ⟨fun hsame => by rw [hsame], fun hends => ?_⟩⟩
  · rintro ⟨check', hcheck', rfl⟩
    exact canonical_getLast hcheck'
  · rcases hserial with rfl | rfl
    · exact ⟨check, hcheck, rfl⟩
    · exact absurd hnewline hend
  · obtain ⟨check', hcheck', hserial'⟩ := canonical_of_parse h'
    obtain rfl := Except.ok.inj (hcheck.symm.trans hcheck')
    rcases hserial with rfl | rfl
    · rcases hserial' with rfl | rfl
      · rfl
      · exact absurd (hends.mpr hnewline) hlast
    · rcases hserial' with rfl | rfl
      · exact absurd (hends.mp hnewline) hlast
      · rfl

/-- Two serials with the same content, the second with a newline at its end. -/
theorem parseSerial_canonical_sample :
    IsCanonical "NG-ALC-2026-0000000001-T" ⟨"ALC", 2026, 1⟩ ∧ ¬IsCanonical "NG-ALC-2026-0000000001-T\n" ⟨"ALC", 2026, 1⟩ :=
  ⟨(parseSerial_canonical_iff _ _ (by decide)).1.mpr (by decide),
    fun h => (parseSerial_canonical_iff "NG-ALC-2026-0000000001-T\n" _ (by decide)).1.mp h (by decide)⟩

/-- A serial followed by a newline parses, to the content of the serial without it, and is not canonical. -/
theorem parseSerial_newline :
    ¬(∀ serial p, parseSerial serial = .ok p → IsCanonical serial p) ∧
    ¬(∀ serial serial' p, parseSerial serial = .ok p → parseSerial serial' = .ok p → serial = serial') := by
  have hparse : parseSerial "NG-ALC-2026-0000000001-T" = .ok ⟨"ALC", 2026, 1⟩ := by decide
  have hnewline : parseSerial "NG-ALC-2026-0000000001-T\n" = .ok ⟨"ALC", 2026, 1⟩ := by decide
  refine ⟨fun hall => ?_, fun hall => absurd (hall _ _ _ hparse hnewline) (by decide)⟩
  obtain ⟨check, hcheck, hserial⟩ := hall _ _ hnewline
  exact canonical_getLast hcheck (by rw [← hserial]; decide)

/-! ### Formatted serials are read back -/

/-- The years and sequence numbers that fit a serial. -/
def SerialRange (year sequence : ℤ) : Prop :=
  2000 ≤ year ∧ year ≤ 9999 ∧ 1 ≤ sequence ∧ sequence ≤ 9999999999
  deriving Decidable

/-- Whether a formatted serial is read back: it is formatted, valid and parses to what was formatted. -/
def ReadBack (productCategory : String) (year sequence : ℤ) : Prop :=
  ∃ serial p, formatSerial productCategory year sequence = .ok serial ∧ isValidSerial serial = true ∧
    parseSerial serial = .ok p ∧ categoryCode productCategory = .ok p.categoryCode ∧ p.year = year ∧ p.sequence = sequence

/-- Outside the range nothing is formatted. -/
theorem formatSerial_error (productCategory : String) {year sequence : ℤ} (h : ¬SerialRange year sequence) :
    ∃ message, formatSerial productCategory year sequence = .error (.serialError message) := by
  unfold SerialRange at h
  by_cases hpositive : sequence ≤ 0
  · exact ⟨_, by rw [formatSerial, if_pos hpositive]; rfl⟩
  by_cases hcapacity : sequence > 9999999999
  · exact ⟨_, by rw [formatSerial, if_neg hpositive, if_pos hcapacity]; rfl⟩
  · have hyear : ¬(2000 ≤ year ∧ year ≤ 9999) := by omega
    exact ⟨_, by rw [formatSerial, if_neg hpositive, if_neg hcapacity, if_pos hyear]; rfl⟩

/-- A formatted serial parses to what was formatted. -/
theorem parseSerial_formatted {productCategory serial : String} {year sequence : ℤ}
    (h : formatSerial productCategory year sequence = .ok serial) :
    ∃ p, parseSerial serial = .ok p ∧ categoryCode productCategory = .ok p.categoryCode ∧ p.year = year ∧
      p.sequence = sequence := by
  have hrange : SerialRange year sequence := by
    by_contra hrange
    obtain ⟨message, herror⟩ := formatSerial_error productCategory hrange
    rw [h] at herror
    cases herror
  obtain ⟨code, hcode, hparse⟩ := parseSerial_formatSerial h
  rw [digitsValue_zeroPad, digitsValue_zeroPad] at hparse
  obtain ⟨hfrom, -, hpositive, -⟩ := hrange
  exact ⟨_, hparse, hcode, Int.toNat_of_nonneg (by omega), Int.toNat_of_nonneg (by omega)⟩

/-- Every category but tobacco has a code over the check alphabet. -/
theorem categoryCode_alphabet {productCategory code : String} (h : categoryCode productCategory = .ok code) :
    (∀ c ∈ code.toList, c ∈ alphabet) ↔ productCategory ≠ "tobacco" := by
  have hcodes : ∀ entry ∈ categoryCodes, (∀ c ∈ entry.2.toList, c ∈ alphabet) ↔ entry.1 ≠ "tobacco" := by decide
  exact hcodes (productCategory, code) (categoryCode_mem h)

/-- Different categories have different codes. -/
theorem categoryCode_injective {productCategory productCategory' code : String}
    (h : categoryCode productCategory = .ok code) (h' : categoryCode productCategory' = .ok code) :
    productCategory = productCategory' := by
  have hcodes : ∀ entry ∈ categoryCodes, ∀ entry' ∈ categoryCodes, entry.2 = entry'.2 → entry.1 = entry'.1 := by
    decide
  exact hcodes (productCategory, code) (categoryCode_mem h) (productCategory', code) (categoryCode_mem h') rfl

/-- A payload over the alphabet has a check character. -/
theorem checkCharacter_total {payload : List Char} (h : ∀ c ∈ payload, c = '-' ∨ c ∈ alphabet) :
    ∃ check, checkCharacter payload = .ok check := by
  have hreverse : ∀ c ∈ payload.reverse, c = '-' ∨ c ∈ alphabet := fun c hc => h c (List.mem_reverse.mp hc)
  obtain ⟨sum, hsum⟩ := luhnSum_total hreverse 2 0
  exact ⟨_, by rw [checkCharacter, hsum]; rfl⟩

/-- ASCII digits are in the alphabet. -/
theorem mem_alphabet_of_isDigit {c : Char} (h : c.isDigit = true) : c ∈ alphabet := by
  have hdigits : ∀ n, 48 ≤ n → n ≤ 57 → Char.ofNat n ∈ alphabet := by decide
  rw [← Char.ofNat_toNat c]
  exact hdigits c.toNat (digit_bounds h).1 (digit_bounds h).2

/-- In the range a known category is formatted exactly when it is not tobacco. -/
theorem formatSerial_total_iff {productCategory code : String} {year sequence : ℤ}
    (hcode : categoryCode productCategory = .ok code) (hrange : SerialRange year sequence) :
    (∃ serial, formatSerial productCategory year sequence = .ok serial) ↔ productCategory ≠ "tobacco" := by
  rw [← categoryCode_alphabet hcode]
  constructor
  · intro ⟨serial, hserial⟩ c hc
    obtain ⟨-, -, code', check, hcode', hcheck, -⟩ := formatSerial_ok hserial
    obtain rfl := Except.ok.inj (hcode.symm.trans hcode')
    have hmem := (serialSum_check hcheck).1 c (by simp [hc])
    refine hmem.resolve_left ?_
    rintro rfl
    have hletter := List.all_eq_true.mp (categoryCode_ok hcode).2 '-' hc
    exact absurd hletter (by decide)
  · intro hletters
    have hpayload : ∀ c ∈ ("NG-" ++ code ++ "-" ++ zeroPad 4 year.toNat ++ "-" ++ zeroPad 10 sequence.toNat).toList,
        c = '-' ∨ c ∈ alphabet := by
      intro c hc
      simp only [String.toList_append, List.mem_append] at hc
      have hfixed : ∀ c ∈ "NG-".toList, c = '-' ∨ c ∈ alphabet := by decide
      have hdash : ∀ c ∈ "-".toList, c = '-' := by decide
      rcases hc with ((((hc | hc) | hc) | hc) | hc) | hc
      · exact hfixed c hc
      · exact .inr (hletters c hc)
      · exact .inl (hdash c hc)
      · exact .inr (mem_alphabet_of_isDigit (isDigit_of_mem_zeroPad hc))
      · exact .inl (hdash c hc)
      · exact .inr (mem_alphabet_of_isDigit (isDigit_of_mem_zeroPad hc))
    obtain ⟨check, hcheck⟩ := checkCharacter_total hpayload
    obtain ⟨hfrom, hto, hpositive, hcapacity⟩ := hrange
    refine ⟨"NG-" ++ code ++ "-" ++ zeroPad 4 year.toNat ++ "-" ++ zeroPad 10 sequence.toNat ++ "-" ++
      String.ofList [check], ?_⟩
    rw [formatSerial, if_neg (by omega), if_neg (by omega), if_neg (by omega), hcode]
    simp only [bind, Except.bind, hcheck]
    rfl

/-- Formatting and parsing are inverse for every category but tobacco. Within the range a formatted serial is read back,
and outside it the formatting fails, exactly when the category is not tobacco or the range is not met; and a serial is
formatted from one category, year and sequence only. -/
theorem formatSerial_readBack_iff (productCategory : String) (year sequence : ℤ) :
    ((((∃ code, categoryCode productCategory = .ok code) → SerialRange year sequence →
          ReadBack productCategory year sequence) ∧
        (¬SerialRange year sequence →
          ∃ message, formatSerial productCategory year sequence = .error (.serialError message))) ↔
      ¬(productCategory = "tobacco" ∧ SerialRange year sequence)) ∧
    ∀ productCategory' year' sequence' serial, formatSerial productCategory year sequence = .ok serial →
      formatSerial productCategory' year' sequence' = .ok serial →
      productCategory = productCategory' ∧ year = year' ∧ sequence = sequence' := by
  refine ⟨⟨?_, fun hcondition => ⟨?_, formatSerial_error productCategory⟩⟩, ?_⟩
  · rintro ⟨hback, -⟩ ⟨rfl, hrange⟩
    obtain ⟨serial, -, hserial, -⟩ := hback ⟨"TOB", rfl⟩ hrange
    exact (formatSerial_total_iff rfl hrange).mp ⟨serial, hserial⟩ rfl
  · intro ⟨code, hcode⟩ hrange
    obtain ⟨serial, hserial⟩ := (formatSerial_total_iff hcode hrange).mpr fun htobacco => hcondition ⟨htobacco, hrange⟩
    obtain ⟨p, hparse, hsame⟩ := parseSerial_formatted hserial
    exact ⟨serial, p, hserial, isValidSerial_of_parse hparse, hparse, hsame⟩
  · intro productCategory' year' sequence' serial hserial hserial'
    obtain ⟨p, hparse, hcode, hyear, hsequence⟩ := parseSerial_formatted hserial
    obtain ⟨p', hparse', hcode', hyear', hsequence'⟩ := parseSerial_formatted hserial'
    obtain rfl := Except.ok.inj (hparse.symm.trans hparse')
    exact ⟨categoryCode_injective hcode hcode', hyear.symm.trans hyear', hsequence.symm.trans hsequence'⟩

/-- No serial of a tobacco stamp can be formatted: its code has a letter that the check alphabet leaves out. -/
theorem not_readBack_tobacco : ¬(∀ productCategory year sequence, (∃ code, categoryCode productCategory = .ok code) →
    SerialRange year sequence → ReadBack productCategory year sequence) := by
  intro hall
  obtain ⟨serial, -, hserial, -⟩ := hall "tobacco" 2026 1 ⟨"TOB", rfl⟩ (by decide)
  have hformat : formatSerial "tobacco" 2026 1 = .error (.serialError "invalid serial character: 'O'") := by
    decide
  rw [hformat] at hserial
  cases hserial

end TaxStamp
