import TaxStamp.Timestamps

/-!
# Reading timestamps

What `datetime.fromisoformat` accepts. The reader walks over the UTF-8 text by position, as CPython's does: past the end
it sees a NUL character, and when an offset follows, what the time of day leaves unread before it is ignored.
-/

namespace TaxStamp

namespace IsoFormat

/-- A text with each character repeated for its bytes: only ASCII characters are ever told apart. -/
def utf8 (text : List Char) : List Char := text.flatMap fun c => List.replicate c.utf8Size c

variable (text : List Char)

/-- The character at a position; a NUL ends every text. -/
def charAt (i : ℕ) : Char := text.getD i '\x00'

/-- A number of exactly `count` digits. -/
def parseDigits (i count : ℕ) : Option ℕ :=
  let digits := (List.range count).map fun k => charAt text (i + k)
  if digits.all Char.isDigit then some (Nat.ofDigitChars 10 digits 0) else none

/-- The first position from `i` on without a digit. -/
def skipDigits (i : ℕ) : ℕ := i + ((text.drop i).takeWhile Char.isDigit).length

/-! ### Dates -/

/-- A leap year of the Gregorian calendar. -/
def isLeap (year : ℕ) : Bool := year % 4 = 0 && (year % 100 ≠ 0 || year % 400 = 0)

/-- The days of a month. -/
def daysInMonth (year month : ℕ) : ℕ :=
  if month = 2 then if isLeap year then 29 else 28
  else if month ∈ [4, 6, 9, 11] then 30
  else 31

/-- The weekday of a day counted from the epoch, Monday first. -/
def weekday (day : ℤ) : ℤ := (day + 3) % 7

/-- The Monday of the first ISO week of a year. -/
def isoWeek1Monday (year : ℕ) : ℤ :=
  let firstDay := daysFromCivil year 1 1
  let week1Monday := firstDay - weekday firstDay
  if 3 < weekday firstDay then week1Monday + 7 else week1Monday

/-- The calendar date of a day of an ISO week. -/
def isoToYmd (year week day : ℕ) : Option (ℤ × ℤ × ℤ) :=
  let firstWeekday := weekday (daysFromCivil year 1 1)
  let longYear := firstWeekday = 3 ∨ firstWeekday = 2 ∧ isLeap year
  if year < 1 then none
  else if week = 0 ∨ 53 < week ∨ week = 53 ∧ ¬longYear then none
  else if day = 0 ∨ 7 < day then none
  else some (civilFromDays (isoWeek1Monday year + ((week : ℤ) - 1) * 7 + day - 1))

/-- Where the character that separates date and time stands. -/
def findSeparator : Option ℕ :=
  if text.length = 7 then some 7
  else if charAt text 4 = '-' then
    if charAt text 5 ≠ 'W' then some 10
    else if text.length < 8 then none
    else if charAt text 8 ≠ '-' then some 8
    else if text.length = 9 then none
    else if (charAt text 10).isDigit then some 8
    else some 10
  else if charAt text 4 ≠ 'W' then some 8
  else
    let i := skipDigits text 7
    if i < 9 then some i
    else if i % 2 = 0 then some 7
    else some 8

/-- The date before position `stop`. -/
def parseDate (stop : ℕ) : Option (ℤ × ℤ × ℤ) := do
  let year ← parseDigits text 0 4
  let usesSeparator := charAt text 4 = '-'
  let i := if usesSeparator then 5 else 4
  if charAt text i = 'W' then
    let week ← parseDigits text (i + 1) 2
    if stop ≤ i + 3 then isoToYmd year week 1
    else if usesSeparator ∧ charAt text (i + 3) ≠ '-' then none
    else
      let day ← parseDigits text (if usesSeparator then i + 4 else i + 3) 1
      isoToYmd year week day
  else
    let month ← parseDigits text i 2
    if usesSeparator ∧ charAt text (i + 2) ≠ '-' then none
    else
      let dayAt := if usesSeparator then i + 3 else i + 2
      let day ← parseDigits text dayAt 2
      if dayAt + 2 ≠ stop then none
      else some ((year : ℤ), (month : ℤ), (day : ℤ))

/-! ### Times -/

/-- Hours, minutes and seconds read so far and where a fraction starts, if one does. `unread` says that characters
remain. -/
inductive Clock
  | whole (values : List ℕ) (unread : Bool)
  | fraction (values : List ℕ) (start : ℕ)

/-- Up to `count` more numbers of two digits before position `stop`. The first character between two of them decides
whether colons separate the others too. -/
def parseClock (stop : ℕ) : (count : ℕ) → (hasSeparator : Option Bool) → (i : ℕ) → (values : List ℕ) → Option Clock
  | 0, _, i, values => some (.fraction values i)
  | count + 1, hasSeparator, i, values => do
    let value ← parseDigits text i 2
    let c := charAt text (i + 2)
    let separated := hasSeparator.getD (c = ':')
    if stop ≤ i + 3 then some (.whole (values ++ [value]) (c ≠ '\x00'))
    else if separated ∧ c = ':' then parseClock stop count (some separated) (i + 3) (values ++ [value])
    else if c = '.' ∨ c = ',' then some (.fraction (values ++ [value]) (i + 3))
    else if separated then none
    else parseClock stop count (some separated) (i + 2) (values ++ [value])

/-- Hours, minutes, seconds and microseconds. -/
structure ClockTime where
  hour : ℕ
  minute : ℕ
  second : ℕ
  microsecond : ℕ

/-- The values in order; what is not given is zero. -/
def clockTime (values : List ℕ) (microsecond : ℕ) : ClockTime :=
  ⟨values.getD 0 0, values.getD 1 0, values.getD 2 0, microsecond⟩

/-- The time of day from position `start` to position `stop`, and whether characters remain. -/
def parseHhMmSsFf (start stop : ℕ) : Option (ClockTime × Bool) := do
  match ← parseClock text stop 3 none start [] with
  | .whole values unread => some (clockTime values 0, unread)
  | .fraction values i =>
    let toParse := min 6 (stop - i)
    let digits ← parseDigits text i toParse
    let rest := skipDigits text (i + toParse)
    some (clockTime values (digits * 10 ^ (6 - toParse)), charAt text rest ≠ '\x00')

/-- The offset from UTC in seconds and microseconds. -/
abbrev Offset := ℤ × ℤ

/-- The time from position `start` on, with its offset. -/
def parseTime (start : ℕ) : Option (ClockTime × Option Offset) := do
  let zoneAt := start + ((text.drop start).takeWhile fun c => c ≠ '+' ∧ c ≠ '-' ∧ c ≠ 'Z').length
  let (time, unread) ← parseHhMmSsFf text start zoneAt
  if zoneAt = text.length then if unread then none else some (time, none)
  else if charAt text zoneAt = 'Z' then
    if charAt text (zoneAt + 1) ≠ '\x00' then none else some (time, some (0, 0))
  else
    let (zone, unread) ← parseHhMmSsFf text (zoneAt + 1) text.length
    let sign : ℤ := if charAt text zoneAt = '-' then -1 else 1
    if unread then none
    else some (time, some (sign * (zone.hour * 3600 + zone.minute * 60 + zone.second), sign * zone.microsecond))

/-! ### Date and time -/

/-- A date of the calendar with years from 1 to 9999. -/
def validDate : ℤ × ℤ × ℤ → Bool
  | (year, month, day) =>
    1 ≤ year && year ≤ 9999 && 1 ≤ month && month ≤ 12 && 1 ≤ day && day ≤ daysInMonth year.toNat month.toNat

/-- A time of one day. -/
def validTime (time : ClockTime) : Bool := time.hour ≤ 23 && time.minute ≤ 59 && time.second ≤ 59

/-- An offset shorter than a day. Without whole seconds it is UTC. -/
def validOffset : Option Offset → Bool
  | none => true
  | some (seconds, microseconds) => seconds = 0 || (seconds * 1000000 + microseconds).natAbs < 86400000000

/-- The date, the time of day and the offset that a text gives. One character of any width separates date and time. -/
def read : Option ((ℤ × ℤ × ℤ) × ClockTime × Option Offset) := do
  let separator ← findSeparator text
  let date ← parseDate text separator
  let (time, offset) ←
    if text.length = separator then some (clockTime [] 0, none)
    else parseTime text (separator + (charAt text separator).utf8Size)
  if validDate date && validTime time && validOffset offset then some (date, time, offset) else none

end IsoFormat

/-- The date, the time of day and the offset of a text of at least seven characters. -/
def fromIsoformat (text : List Char) : Option ((ℤ × ℤ × ℤ) × IsoFormat.ClockTime × Option IsoFormat.Offset) :=
  if text.length < 7 then none else IsoFormat.read (IsoFormat.utf8 text)

end TaxStamp
