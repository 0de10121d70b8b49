import TaxStamp.Values

/-!
# Serial numbers

A serial reads `NG-<CAT>-<YEAR>-<SEQ>-<CHECK>`. The check character is a Luhn mod-34
character over the payload. Parsing follows the regular expression of the source: `\d`
matches every Unicode decimal digit and `$` also matches before a final newline; the
check character is computed afterwards and refuses anything outside its own alphabet.
-/

namespace TaxStamp

/-- The characters of a serial payload; their positions are their check values. -/
def alphabet : List Char := "0123456789ABCDEFGHJKLMNPQRSTUVWXYZ".toList

/-- The three-letter code of each product category. -/
def categoryCodes : List (String × String) :=
  [("tobacco", "TOB"), ("alcohol", "ALC"), ("pharmaceuticals", "PHA"), ("beverages", "BEV")]

/-- The code of a known category. -/
def categoryCode (productCategory : String) : Except Fault String :=
  match categoryCodes.lookup productCategory with
  | some code => .ok code
  | none => .error (.serialError s!"unknown product category: {pyRepr productCategory}")

/-- The Luhn sum of a reversed payload, alternating the factors 2 and 1. -/
def luhnSum : List Char → ℕ → ℕ → Except Fault ℕ
  | [], _, total => .ok total
  | char :: rest, factor, total =>
    if char = '-' then luhnSum rest factor total
    else if char ∈ alphabet then
      let addend := factor * alphabet.idxOf char
      luhnSum rest (if factor = 2 then 1 else 2)
        (total + (addend / alphabet.length + addend % alphabet.length))
    else .error (.serialError s!"invalid serial character: {pyRepr (String.ofList [char])}")

/-- The check character of a payload. -/
def checkCharacter (payload : List Char) : Except Fault Char := do
  let total ← luhnSum payload.reverse 2 0
  let remainder := total % alphabet.length
  return alphabet.getD ((alphabet.length - remainder) % alphabet.length) '0'

/-- Format a serial. -/
def formatSerial (productCategory : String) (year sequence : ℤ) : Except Fault String := do
  if sequence ≤ 0 then .error (.serialError "sequence must be positive")
  if sequence > 9999999999 then .error (.serialError "sequence exceeds the serial format capacity")
  if ¬(2000 ≤ year ∧ year ≤ 9999) then .error (.serialError "year out of range")
  let code ← categoryCode productCategory
  let payload := "NG-" ++ code ++ "-" ++ zeroPad 4 year.toNat ++ "-" ++ zeroPad 10 sequence.toNat
  let check ← checkCharacter payload.toList
  return payload ++ "-" ++ String.ofList [check]

/-- The first code point of every Unicode block of ten decimal digits. -/
def unicodeDigitZeros : List ℕ :=
  [0x30, 0x660, 0x6f0, 0x7c0, 0x966, 0x9e6, 0xa66, 0xae6, 0xb66, 0xbe6, 0xc66, 0xce6, 0xd66, 0xde6,
    0xe50, 0xed0, 0xf20, 0x1040, 0x1090, 0x17e0, 0x1810, 0x1946, 0x19d0, 0x1a80, 0x1a90, 0x1b50,
    0x1bb0, 0x1c40, 0x1c50, 0xa620, 0xa8d0, 0xa900, 0xa9d0, 0xa9f0, 0xaa50, 0xabf0, 0xff10, 0x104a0,
    0x10d30, 0x11066, 0x110f0, 0x11136, 0x111d0, 0x112f0, 0x11450, 0x114d0, 0x11650, 0x116c0,
    0x11730, 0x118e0, 0x11950, 0x11c50, 0x11d50, 0x11da0, 0x11f50, 0x16a60, 0x16ac0, 0x16b50,
    0x1d7ce, 0x1d7d8, 0x1d7e2, 0x1d7ec, 0x1d7f6, 0x1e140, 0x1e2f0, 0x1e4f0, 0x1e950, 0x1fbf0]

/-- The value of a Unicode decimal digit. -/
def digitValue? (c : Char) : Option ℕ :=
  (unicodeDigitZeros.find? fun first => first ≤ c.toNat ∧ c.toNat < first + 10).map (c.toNat - ·)

/-- The number written by decimal digits. -/
def digitsValue (text : List Char) : ℕ :=
  text.foldl (fun acc c => acc * 10 + (digitValue? c).getD 0) 0

/-- The named groups of a serial that matches the regular expression. -/
structure SerialMatch where
  cat : List Char
  year : List Char
  seq : List Char
  check : Char
  deriving DecidableEq, Repr

/-- Match the serial format at its fixed positions. -/
def serialMatch (serial : List Char) : Option SerialMatch :=
  let cat := (serial.drop 3).take 3
  let year := (serial.drop 7).take 4
  let seq := (serial.drop 12).take 10
  match serial.drop 23 with
  | [] => none
  | check :: tail =>
    if serial.take 3 = ['N', 'G', '-'] ∧ cat.all (fun c => 'A' ≤ c ∧ c ≤ 'Z') ∧
        (serial.drop 6).take 1 = ['-'] ∧ year.all (fun c => (digitValue? c).isSome) ∧
        (serial.drop 11).take 1 = ['-'] ∧ seq.all (fun c => (digitValue? c).isSome) ∧
        (serial.drop 22).take 1 = ['-'] ∧ (('0' ≤ check ∧ check ≤ '9') ∨ ('A' ≤ check ∧ check ≤ 'Z')) ∧
        (tail = [] ∨ tail = ['\n'])
    then some ⟨cat, year, seq, check⟩ else none

/-- The part of a text before its last dash. -/
def beforeLastDash (text : List Char) : List Char :=
  ((text.reverse.dropWhile (· ≠ '-')).drop 1).reverse

/-- The content of a valid serial. -/
structure ParsedSerial where
  categoryCode : String
  year : ℕ
  sequence : ℕ
  deriving DecidableEq, Repr

/-- Parse a serial: match the format, then verify the check character. -/
def parseSerial (serial : String) : Except Fault ParsedSerial :=
  match serialMatch serial.toList with
  | none => .error (.serialError "serial does not match the required format")
  | some m => do
    let check ← checkCharacter (beforeLastDash serial.toList)
    if check ≠ m.check then .error (.serialError "serial check character is invalid")
    return ⟨String.ofList m.cat, digitsValue m.year, digitsValue m.seq⟩

/-- Whether a serial parses. -/
def isValidSerial (serial : String) : Bool :=
  match parseSerial serial with
  | .ok _ => true
  | .error _ => false

end TaxStamp
