import TaxStamp.Json
import TaxStamp.Lib.Reading

/-!
# Identifiers and timestamps

Identifiers are opaque 128-bit tokens: the services compare them and print them, nothing
else. Timestamps are timezone-aware UTC instants with microsecond resolution, counted
from the Unix epoch; the calendar is needed for the year of a serial and for the printed
form that enters the audit documents.
-/

namespace TaxStamp

open Lib

/-- A random identifier. -/
structure Uuid where
  val : ℕ
  deriving DecidableEq, Repr

/-- The printed form of an identifier. -/
def Uuid.str (id : Uuid) : String := toString id.val

/-- Different identifiers print differently. -/
theorem Uuid.str_injective : Function.Injective Uuid.str := by
  rintro ⟨a⟩ ⟨b⟩ h
  exact congrArg Uuid.mk (repr_injective h)

/-- Microseconds since the Unix epoch. -/
abbrev Time := ℤ

/-- A duration in seconds. -/
def seconds (n : ℤ) : ℤ := n * 1000000

/-- A duration in days. -/
def days (n : ℤ) : ℤ := n * 86400000000

/-- The proleptic Gregorian date of a day count since the epoch: year, month, day. -/
def civilFromDays (day : ℤ) : ℤ × ℤ × ℤ :=
  let z := day + 719468
  let era := z / 146097
  let dayOfEra := z % 146097
  let yearOfEra := (dayOfEra - dayOfEra / 1460 + dayOfEra / 36524 - dayOfEra / 146096) / 365
  let dayOfYear := dayOfEra - (365 * yearOfEra + yearOfEra / 4 - yearOfEra / 100)
  let shifted := (5 * dayOfYear + 2) / 153
  let month := if shifted < 10 then shifted + 3 else shifted - 9
  (yearOfEra + era * 400 + (if month ≤ 2 then 1 else 0), month,
    dayOfYear - (153 * shifted + 2) / 5 + 1)

/-- The calendar year of an instant. -/
def Time.year (t : Time) : ℤ := (civilFromDays (t / 86400000000)).1

/-- An instant a `datetime` can represent: its year is from 1 to 9999. -/
def Time.representable (t : Time) : Bool := 1 ≤ t.year ∧ t.year ≤ 9999

/-- Adding a duration overflows outside the representable years. -/
def Time.add (t : Time) (duration : ℤ) : Except Fault Time :=
  if Time.representable (t + duration) then .ok (t + duration) else .error .overflowError

/-- A sum that does not overflow is the sum. -/
theorem Time.add_ok {t t' : Time} {duration : ℤ} (h : Time.add t duration = .ok t') : t' = t + duration := by
  unfold Time.add at h
  split at h
  · exact (Except.ok.inj h).symm
  · cases h

/-- `ensure_utc` of an instant, which overflows when its UTC time is outside the representable years. -/
def ensureUtc (t : Time) : Except Fault Time := if t.representable then .ok t else .error .overflowError

/-- An instant is converted to UTC exactly when it is representable there. -/
@[simp] theorem ensureUtc_ok {t t' : Time} : ensureUtc t = .ok t' ↔ t.representable = true ∧ t' = t := by
  unfold ensureUtc
  split
  · rename_i hrepresentable
    simp [hrepresentable, eq_comm]
  · rename_i hrepresentable
    simp [hrepresentable]

/-- A number padded with zeros on the left to the given width. -/
def zeroPad (width n : ℕ) : String :=
  String.ofList (List.replicate (width - (toString n).toList.length) '0' ++ (toString n).toList)

/-- `isoformat` of a UTC instant; the microseconds are printed only when they are not zero. -/
def Time.isoformat (t : Time) : String :=
  let date := civilFromDays (t / 86400000000)
  let micros := (t % 86400000000).toNat
  let second := micros / 1000000
  let fraction := micros % 1000000
  zeroPad 4 date.1.toNat ++ "-" ++ zeroPad 2 date.2.1.toNat ++ "-" ++ zeroPad 2 date.2.2.toNat ++ "T" ++
    zeroPad 2 (second / 3600) ++ ":" ++ zeroPad 2 (second / 60 % 60) ++ ":" ++ zeroPad 2 (second % 60) ++
    (if fraction = 0 then "" else "." ++ zeroPad 6 fraction) ++ "+00:00"

example : Time.isoformat 1772323200000000 = "2026-03-01T00:00:00+00:00" := by decide

end TaxStamp
