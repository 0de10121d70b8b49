import Mathlib.Tactic.IntervalCases
import TaxStamp.Json
import TaxStamp.Lib.Documents

/-!
# Texts as Python holds them

A text is a list of code points, surrogates included. `json.dumps` with ASCII output writes
a code point of the basic plane as one escape and any other as the escapes of a surrogate
pair, so what it writes are the code units of UTF-16. The units are always read back. The
text is read back from its units unless a high surrogate stands directly before a low one,
which together read as one code point.
-/

namespace TaxStamp

open Lib

/-- A code point, surrogates included. -/
abbrev CodePoint := Fin 1114112

/-- A Python text. -/
abbrev PyText := List CodePoint

/-- A code unit of UTF-16. -/
abbrev CodeUnit := Fin 65536

/-- The first half of a surrogate pair. -/
def isHighSurrogate (n : ℕ) : Bool := 55296 ≤ n && n < 56320

/-- The second half of a surrogate pair. -/
def isLowSurrogate (n : ℕ) : Bool := 56320 ≤ n && n < 57344

/-- No high surrogate is directly followed by a low one. -/
def Unpaired (text : PyText) : Prop :=
  text.IsChain fun a b : CodePoint => ¬(isHighSurrogate a.val = true ∧ isLowSurrogate b.val = true)

/-- The escape of a code point in an ASCII JSON string. -/
def escapeCode (n : ℕ) : List Char :=
  if n = 34 then ['\\', '"']
  else if n = 92 then ['\\', '\\']
  else if n = 10 then ['\\', 'n']
  else if n = 13 then ['\\', 'r']
  else if n = 9 then ['\\', 't']
  else if n = 8 then ['\\', 'b']
  else if n = 12 then ['\\', 'f']
  else if 32 ≤ n ∧ n < 127 then [Char.ofNat n]
  else if n < 65536 then ['\\', 'u'] ++ hexFour n
  else ['\\', 'u'] ++ hexFour (55296 + (n - 65536) / 1024) ++
    ['\\', 'u'] ++ hexFour (56320 + (n - 65536) % 1024)

/-- A quoted JSON string. -/
def quoteText (text : PyText) : List Char := '"' :: text.flatMap (fun c => escapeCode c.val) ++ ['"']

/-! ### Digits -/

/-- The value of a hexadecimal digit. -/
def digitValue (c : Char) : ℕ := if c.toNat < 58 then c.toNat - 48 else c.toNat - 87

/-- A printed digit has its value. -/
theorem digitValue_digitChar {n : ℕ} (h : n < 16) : digitValue n.digitChar = n := by
  interval_cases n <;> rfl

/-- The number of four hexadecimal digits. -/
def hexValue (a b c d : Char) : ℕ :=
  4096 * digitValue a + 256 * digitValue b + 16 * digitValue c + digitValue d

/-- Four printed digits have their value. -/
theorem hexValue_hexFour {n : ℕ} (h : n < 65536) :
    hexValue (n / 4096 % 16).digitChar (n / 256 % 16).digitChar (n / 16 % 16).digitChar (n % 16).digitChar = n := by
  have hdigit : ∀ m, m % 16 < 16 := fun m => Nat.mod_lt m (by decide)
  rw [hexValue, digitValue_digitChar (hdigit _), digitValue_digitChar (hdigit _), digitValue_digitChar (hdigit _),
    digitValue_digitChar (hdigit _)]
  omega

/-! ### Code units -/

/-- The code units of a code point. -/
def CodePoint.units (c : CodePoint) : List CodeUnit :=
  if h : c.val < 65536 then [⟨c.val, h⟩]
  else [⟨55296 + (c.val - 65536) / 1024, by omega⟩, ⟨56320 + (c.val - 65536) % 1024, by omega⟩]

/-- A code point is written as its code units. -/
theorem escapeCode_units (c : CodePoint) : escapeCode c.val = c.units.flatMap fun u => escapeCode u.val := by
  by_cases hplane : c.val < 65536
  · rw [CodePoint.units, dif_pos hplane]
    simp
  · rw [CodePoint.units, dif_neg hplane]
    have hsurrogate : ∀ n, 55296 ≤ n → n < 57344 → escapeCode n = ['\\', 'u'] ++ hexFour n := by
      intro n hlow hhigh
      unfold escapeCode
      rw [if_neg (by omega), if_neg (by omega), if_neg (by omega), if_neg (by omega), if_neg (by omega),
        if_neg (by omega), if_neg (by omega), if_neg (by omega), if_pos (by omega)]
    have hpair : escapeCode c.val = ['\\', 'u'] ++ hexFour (55296 + (c.val - 65536) / 1024) ++
        ['\\', 'u'] ++ hexFour (56320 + (c.val - 65536) % 1024) := by
      unfold escapeCode
      rw [if_neg (by omega), if_neg (by omega), if_neg (by omega), if_neg (by omega), if_neg (by omega),
        if_neg (by omega), if_neg (by omega), if_neg (by omega), if_neg hplane]
    have hhigh := hsurrogate (55296 + (c.val - 65536) / 1024) (by omega) (by omega)
    have hlow := hsurrogate (56320 + (c.val - 65536) % 1024) (by omega) (by omega)
    simp only [List.flatMap_cons, List.flatMap_nil, List.append_nil]
    rw [hpair, hhigh, hlow, List.append_assoc]

/-- The unit of a one-letter escape. -/
def unescapeLetter (c : Char) : ℕ :=
  if c = 'n' then 10
  else if c = 'r' then 13
  else if c = 't' then 9
  else if c = 'b' then 8
  else if c = 'f' then 12
  else c.toNat

/-- Read one escaped unit. -/
def unescape : List Char → Option (ℕ × List Char)
  | [] => none
  | c :: rest =>
    if c = '\\' then
      match rest with
      | [] => none
      | d :: rest =>
        if d = 'u' then
          match rest with
          | a :: b :: c :: d :: rest => some (hexValue a b c d, rest)
          | _ => none
        else some (unescapeLetter d, rest)
    else some (c.toNat, rest)

/-- The forms of the escape of a unit. -/
inductive Escape (n : ℕ) : List Char → Prop
  | letter (d : Char) (hletter : d ≠ 'u') (hascii : d.toNat < 128) (hread : unescapeLetter d = n) : Escape n ['\\', d]
  | self (hquote : n ≠ 34) (hbackslash : n ≠ 92) (hascii : n < 128) : Escape n [Char.ofNat n]
  | digits : Escape n (['\\', 'u'] ++ hexFour n)

/-- Every unit is escaped in one of these forms. -/
theorem escapeCode_cases {n : ℕ} (h : n < 65536) : Escape n (escapeCode n) := by
  unfold escapeCode
  split
  · exact .letter '"' (by decide) (by decide) (by subst n; rfl)
  · rename_i hquote
    split
    · exact .letter '\\' (by decide) (by decide) (by subst n; rfl)
    · rename_i hbackslash
      split
      · exact .letter 'n' (by decide) (by decide) (by subst n; rfl)
      · split
        · exact .letter 'r' (by decide) (by decide) (by subst n; rfl)
        · split
          · exact .letter 't' (by decide) (by decide) (by subst n; rfl)
          · split
            · exact .letter 'b' (by decide) (by decide) (by subst n; rfl)
            · split
              · exact .letter 'f' (by decide) (by decide) (by subst n; rfl)
              · split
                · exact .self hquote hbackslash (by omega)
                · exact .digits

/-- An ASCII character has its number. -/
theorem toNat_ofNat_ascii {n : ℕ} (h : n < 128) : (Char.ofNat n).toNat = n := by
  interval_cases n <;> rfl

/-- An escape is read back. -/
theorem unescape_escapeCode {n : ℕ} (h : n < 65536) (r : List Char) : unescape (escapeCode n ++ r) = some (n, r) := by
  have hform := escapeCode_cases h
  generalize escapeCode n = text at hform ⊢
  cases hform with
  | letter d hletter _ hread =>
    change (if d = 'u' then _ else some (unescapeLetter d, r)) = _
    rw [if_neg hletter, hread]
  | self _ hbackslash hascii =>
    have hnat := toNat_ofNat_ascii hascii
    have hne : Char.ofNat n ≠ '\\' := by
      intro heq
      rw [heq] at hnat
      exact hbackslash hnat.symm
    change (if Char.ofNat n = '\\' then _ else some ((Char.ofNat n).toNat, r)) = _
    rw [if_neg hne, hnat]
  | digits =>
    change some (hexValue _ _ _ _, r) = _
    rw [hexValue_hexFour h]

/-- No escape is empty or begins with a quote. -/
theorem escapeCode_head {n : ℕ} (h : n < 65536) : ∃ d rest, escapeCode n = d :: rest ∧ d ≠ '"' := by
  have hform := escapeCode_cases h
  generalize escapeCode n = text at hform ⊢
  cases hform with
  | self hquote _ hascii =>
    refine ⟨Char.ofNat n, [], rfl, fun heq => hquote ?_⟩
    rw [← toNat_ofNat_ascii hascii, heq]
    rfl
  | _ => exact ⟨'\\', _, rfl, by decide⟩

/-- The units of a text. -/
def PyText.units (text : PyText) : List CodeUnit := text.flatMap CodePoint.units

/-- Read a text from its units: a high surrogate with a low one behind it is a pair. -/
def decodeUnits : List CodeUnit → PyText
  | [] => []
  | [u] => [⟨u.val, by omega⟩]
  | u :: v :: rest =>
    if h : isHighSurrogate u.val = true ∧ isLowSurrogate v.val = true then
      ⟨65536 + 1024 * (u.val - 55296) + (v.val - 56320), by
        simp only [isHighSurrogate, isLowSurrogate, Bool.and_eq_true, decide_eq_true_eq] at h
        omega⟩ :: decodeUnits rest
    else ⟨u.val, by omega⟩ :: decodeUnits (v :: rest)

/-- The first unit of a text is a low surrogate only when the first code point is. -/
theorem head_units {c : CodePoint} {text : PyText} {u : CodeUnit} {rest : List CodeUnit}
    (h : PyText.units (c :: text) = u :: rest) (hlow : isLowSurrogate u.val = true) : isLowSurrogate c.val = true := by
  rw [PyText.units, List.flatMap_cons, CodePoint.units] at h
  split at h
  · rw [← (List.cons.inj h).1] at hlow
    exact hlow
  · rename_i hplane
    rw [← (List.cons.inj h).1] at hlow
    simp only [isLowSurrogate, Bool.and_eq_true, decide_eq_true_eq] at hlow
    omega

/-- An unpaired text is read back from its units. -/
theorem decodeUnits_units {text : PyText} (h : Unpaired text) : decodeUnits text.units = text := by
  induction text with
  | nil => rfl
  | cons c text ih =>
    have hrest := ih h.of_cons
    rw [PyText.units, List.flatMap_cons, CodePoint.units]
    change decodeUnits (_ ++ PyText.units text) = _
    split
    · rename_i hplane
      cases hunits : PyText.units text with
      | nil =>
        rw [hunits] at hrest
        rw [← hrest]
        rfl
      | cons v rest =>
        have hunpaired : ¬(isHighSurrogate c.val = true ∧ isLowSurrogate v.val = true) := by
          rintro ⟨hhigh, hlow⟩
          cases text with
          | nil => cases hunits
          | cons d text => exact (List.isChain_cons_cons.mp h).1 ⟨hhigh, head_units hunits hlow⟩
        rw [hunits] at hrest
        rw [List.singleton_append, decodeUnits, dif_neg hunpaired, hrest]
    · rename_i hplane
      have hpair : isHighSurrogate (55296 + (c.val - 65536) / 1024) = true ∧
          isLowSurrogate (56320 + (c.val - 65536) % 1024) = true := by
        simp only [isHighSurrogate, isLowSurrogate, Bool.and_eq_true, decide_eq_true_eq]
        omega
      change decodeUnits (_ :: _ :: PyText.units text) = _
      rw [decodeUnits, dif_pos hpair, hrest]
      refine congrArg (· :: text) (Fin.ext ?_)
      dsimp only
      omega

/-! ### Quoted texts -/

/-- A quoted text writes its units. -/
theorem quoteText_units (text : PyText) :
    quoteText text = '"' :: (text.units.flatMap fun u => escapeCode u.val) ++ ['"'] := by
  rw [quoteText, PyText.units, List.flatMap_assoc]
  simp only [escapeCode_units]

/-- Quoted texts are read back when they are unpaired. -/
theorem quotes_unpaired : Document.Quotes quoteText Unpaired := by
  refine ⟨fun text => ⟨_, rfl⟩, fun a b ha hb r s h => ?_⟩
  have hends : ∀ r : List Char, Ends (Begins fun u : CodeUnit => escapeCode u.val) ('"' :: r) := by
    intro r c hc hbegins
    obtain rfl : '"' = c := by simpa using hc
    obtain ⟨u, rest, hescape⟩ := hbegins
    obtain ⟨d, rest', hescape', hquote⟩ := escapeCode_head u.isLt
    exact hquote (List.cons.inj (hescape'.symm.trans hescape)).1
  have hprint : ∀ u : CodeUnit, escapeCode u.val ≠ [] := by
    intro u hnil
    obtain ⟨d, rest, hescape, -⟩ := escapeCode_head u.isLt
    rw [hnil] at hescape
    cases hescape
  have hreadable : Readable fun u : CodeUnit => escapeCode u.val := by
    intro u v r s heq
    have hread := (unescape_escapeCode u.isLt r).symm.trans ((congrArg unescape heq).trans (unescape_escapeCode v.isLt s))
    obtain ⟨hvalue, hrest⟩ := Prod.mk.inj (Option.some.inj hread)
    exact ⟨Fin.ext hvalue, hrest⟩
  rw [quoteText_units, quoteText_units] at h
  simp only [List.cons_append, List.append_assoc, List.nil_append, List.cons.injEq, true_and] at h
  obtain ⟨hunits, hrest⟩ := hreadable.flatMap hprint (hends r) (hends s) h
  refine ⟨?_, (List.cons.inj hrest).2⟩
  rw [← decodeUnits_units ha, hunits, decodeUnits_units hb]

/-- A printed digit is an ASCII character. -/
theorem digitChar_toNat_lt {n : ℕ} (h : n < 16) : n.digitChar.toNat < 128 := by
  interval_cases n <;> decide

/-- An escape is ASCII. -/
theorem isAscii_escapeCode {n : ℕ} (h : n < 65536) : IsAscii (escapeCode n) := by
  have hform := escapeCode_cases h
  generalize escapeCode n = text at hform ⊢
  intro d hd
  cases hform with
  | letter e _ hascii _ =>
    simp only [List.mem_cons, List.not_mem_nil, or_false] at hd
    rcases hd with rfl | rfl
    · decide
    · exact hascii
  | self _ _ hascii =>
    rw [List.mem_singleton.mp hd, toNat_ofNat_ascii hascii]
    exact hascii
  | digits =>
    rcases List.mem_append.mp hd with hprefix | hdigit
    · exact (by decide : IsAscii ['\\', 'u']) d hprefix
    · obtain ⟨m, hm, rfl⟩ := List.mem_map.mp hdigit
      refine digitChar_toNat_lt ?_
      simp only [List.mem_cons, List.not_mem_nil, or_false] at hm
      omega

/-- A quoted text is ASCII. -/
theorem isAscii_quoteText (text : PyText) : IsAscii (quoteText text) := by
  rw [quoteText_units]
  refine IsAscii.bracketed (fun c hc => ?_) (by decide) (by decide)
  obtain ⟨u, -, hu⟩ := List.mem_flatMap.mp hc
  exact isAscii_escapeCode u.isLt c hu

end TaxStamp
