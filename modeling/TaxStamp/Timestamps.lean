import TaxStamp.Values

/-!
# Printed timestamps determine the instant

The calendar date determines the day count, and the printed fields of a representable
instant determine the instant.
-/

namespace TaxStamp

open Lib

/-! ### The calendar -/

section Era

/- `n` is a day of a 400-year era and `y` its year; the year starts in March. -/
variable {n y : ℤ} (hlow : 0 ≤ n) (hhigh : n < 146097) (hy : y = (n - n / 1460 + n / 36524 - n / 146096) / 365)

include hlow hhigh hy

/-- The century of the year is the century of the day; the last day of the era belongs to the last one. -/
theorem century_eq : y / 100 = n / 36524 - n / 146096 := by
  have hcentury : n / 36524 = 0 ∨ n / 36524 = 1 ∨ n / 36524 = 2 ∨ n / 36524 = 3 ∨ n / 36524 = 4 := by omega
  rcases hcentury with h | h | h | h | h <;> omega

/-- Counting the leap years by days is off by at most one. -/
theorem leapYears_bounds : 0 ≤ n / 1460 - y / 4 ∧ n / 1460 - y / 4 ≤ 1 := by omega

/-- The day of the year is below 366. -/
theorem dayOfYear_bounds : 0 ≤ n - (365 * y + y / 4 - y / 100) ∧ n - (365 * y + y / 4 - y / 100) < 366 := by
  have hcentury := century_eq hlow hhigh hy
  have hleap := leapYears_bounds hlow hhigh hy
  omega

end Era

/-- The day count of a calendar date. -/
def daysFromCivil (year month dayOfMonth : ℤ) : ℤ :=
  let y := if month ≤ 2 then year - 1 else year
  let shifted := if month ≤ 2 then month + 9 else month - 3
  let dayOfYear := (153 * shifted + 2) / 5 + dayOfMonth - 1
  let yearOfEra := y % 400
  y / 400 * 146097 + (365 * yearOfEra + yearOfEra / 4 - yearOfEra / 100 + dayOfYear) - 719468

/-- The date of a day of a year that starts in March. -/
def civilOf (era yearOfEra dayOfYear : ℤ) : ℤ × ℤ × ℤ :=
  let shifted := (5 * dayOfYear + 2) / 153
  let month := if shifted < 10 then shifted + 3 else shifted - 9
  (yearOfEra + era * 400 + (if month ≤ 2 then 1 else 0), month, dayOfYear - (153 * shifted + 2) / 5 + 1)

/-- Such a date counts its day, and its month and day of the month count from one. -/
theorem daysFromCivil_civilOf {era y d : ℤ} (hyear : 0 ≤ y ∧ y < 400) (hday : 0 ≤ d ∧ d < 366) :
    daysFromCivil (civilOf era y d).1 (civilOf era y d).2.1 (civilOf era y d).2.2 =
        era * 146097 + (365 * y + y / 4 - y / 100 + d) - 719468 ∧
      1 ≤ (civilOf era y d).2.1 ∧ 1 ≤ (civilOf era y d).2.2 := by
  have hmonth : 0 ≤ (5 * d + 2) / 153 ∧ (5 * d + 2) / 153 ≤ 11 := by omega
  have hera : (y + era * 400) / 400 = era ∧ (y + era * 400) % 400 = y := by omega
  by_cases hspring : (5 * d + 2) / 153 < 10
  · have hmarch : ¬(5 * d + 2) / 153 + 3 ≤ 2 := by omega
    simp only [civilOf, daysFromCivil, if_pos hspring, if_neg hmarch, Int.add_zero, Int.add_sub_cancel, hera]
    omega
  · have hjanuary : (5 * d + 2) / 153 - 9 ≤ 2 := by omega
    simp only [civilOf, daysFromCivil, if_neg hspring, if_pos hjanuary, Int.add_sub_cancel, Int.sub_add_cancel, hera]
    omega

/-- A date counts its own day. -/
theorem daysFromCivil_civilFromDays (day : ℤ) :
    daysFromCivil (civilFromDays day).1 (civilFromDays day).2.1 (civilFromDays day).2.2 = day ∧
      1 ≤ (civilFromDays day).2.1 ∧ 1 ≤ (civilFromDays day).2.2 := by
  have hlow : 0 ≤ (day + 719468) % 146097 := by omega
  have hhigh : (day + 719468) % 146097 < 146097 := by omega
  have hday : day = (day + 719468) / 146097 * 146097 + (day + 719468) % 146097 - 719468 := by omega
  obtain ⟨n, hn⟩ : ∃ n, n = (day + 719468) % 146097 := ⟨_, rfl⟩
  obtain ⟨y, hy⟩ : ∃ y, y = (n - n / 1460 + n / 36524 - n / 146096) / 365 := ⟨_, rfl⟩
  rw [← hn] at hlow hhigh hday
  have hyear : 0 ≤ y ∧ y < 400 := by omega
  have hcivil : civilFromDays day = civilOf ((day + 719468) / 146097) y (n - (365 * y + y / 4 - y / 100)) := by
    rw [hy, hn]
    rfl
  obtain ⟨hcount, hfirst⟩ := @daysFromCivil_civilOf ((day + 719468) / 146097) y _ hyear (dayOfYear_bounds hlow hhigh hy)
  rw [hcivil, hcount]
  exact ⟨by omega, hfirst⟩

/-- Days with the same date are the same. -/
theorem civilFromDays_injective : Function.Injective civilFromDays := by
  intro a b h
  rw [← (daysFromCivil_civilFromDays a).1, h, (daysFromCivil_civilFromDays b).1]

/-! ### Printed fields -/

/-- A padded number consists of digits. -/
theorem isDigit_of_mem_zeroPad {width n : ℕ} {c : Char} (h : c ∈ (zeroPad width n).toList) : c.isDigit = true := by
  rw [zeroPad, String.toList_ofList, List.mem_append, Nat.toString_eq_repr, Nat.toList_repr] at h
  rcases h with hzero | hdigit
  · rw [List.eq_of_mem_replicate hzero]
    rfl
  · exact Nat.isDigit_of_mem_toDigits (by decide) (by decide) hdigit

/-- Different numbers are padded to different texts. -/
theorem zeroPad_injective (width : ℕ) : Function.Injective (zeroPad width) := by
  intro a b h
  have hvalue : ∀ n, Nat.ofDigitChars 10 (zeroPad width n).toList 0 = n := by
    intro n
    rw [zeroPad, String.toList_ofList, Nat.toString_eq_repr, Nat.toList_repr, Nat.ofDigitChars_append,
      Nat.ofDigitChars_replicate_zero, Nat.mul_zero, Nat.ofDigitChars_ten_toDigits]
  rw [← hvalue a, h, hvalue b]

/-- A padded number is read back when no digit follows. -/
theorem zeroPad_read {width a b : ℕ} {r s : List Char} (hr : Ends (fun c => c.isDigit = true) r)
    (hs : Ends (fun c => c.isDigit = true) s) (h : (zeroPad width a).toList ++ r = (zeroPad width b).toList ++ s) :
    a = b ∧ r = s := by
  obtain ⟨htext, hrest⟩ := append_eq_of_class (fun _ => isDigit_of_mem_zeroPad) (fun _ => isDigit_of_mem_zeroPad) hr hs h
  exact ⟨zeroPad_injective width (String.toList_inj.mp htext), hrest⟩

/-- A separator ends a number. -/
theorem ends_digit {c : Char} (h : c.isDigit = false) (r : List Char) : Ends (fun c => c.isDigit = true) (c :: r) := by
  intro d hd hdigit
  obtain rfl : c = d := by simpa using hd
  rw [h] at hdigit
  cases hdigit

/-- The printed fraction of a second and the offset. -/
def fractionText (fraction : ℕ) : List Char :=
  (if fraction = 0 then "" else "." ++ zeroPad 6 fraction).toList ++ "+00:00".toList

/-- A number ends where the fraction begins. -/
theorem ends_fractionText (fraction : ℕ) : Ends (fun c => c.isDigit = true) (fractionText fraction) := by
  unfold fractionText
  split
  · exact ends_digit (by decide) _
  · rw [String.toList_append]
    exact ends_digit (by decide) _

/-- Different fractions print differently. -/
theorem fractionText_injective : Function.Injective fractionText := by
  intro a b h
  unfold fractionText at h
  split at h <;> split at h
  · omega
  · rw [String.toList_append] at h
    exact absurd (List.cons.inj h).1 (by decide)
  · rw [String.toList_append] at h
    exact absurd (List.cons.inj h).1 (by decide)
  · rw [String.toList_append, String.toList_append] at h
    exact (zeroPad_read (ends_digit (by decide) _) (ends_digit (by decide) _) (List.cons.inj h).2).1

/-- The fields of a printed instant. -/
theorem isoformat_toList (t : Time) :
    (Time.isoformat t).toList =
      (zeroPad 4 (civilFromDays (t / 86400000000)).1.toNat).toList ++ '-' ::
      ((zeroPad 2 (civilFromDays (t / 86400000000)).2.1.toNat).toList ++ '-' ::
      ((zeroPad 2 (civilFromDays (t / 86400000000)).2.2.toNat).toList ++ 'T' ::
      ((zeroPad 2 ((t % 86400000000).toNat / 1000000 / 3600)).toList ++ ':' ::
      ((zeroPad 2 ((t % 86400000000).toNat / 1000000 / 60 % 60)).toList ++ ':' ::
      ((zeroPad 2 ((t % 86400000000).toNat / 1000000 % 60)).toList ++
        fractionText ((t % 86400000000).toNat % 1000000)))))) := by
  simp [Time.isoformat, fractionText]

/-- Representable instants that print alike are the same. -/
theorem isoformat_inj {a b : Time} (ha : Time.representable a = true) (hb : Time.representable b = true)
    (h : Time.isoformat a = Time.isoformat b) : a = b := by
  replace h := congrArg String.toList h
  rw [isoformat_toList, isoformat_toList] at h
  obtain ⟨hyear, h⟩ := zeroPad_read (ends_digit (by decide) _) (ends_digit (by decide) _) h
  obtain ⟨hmonth, h⟩ := zeroPad_read (ends_digit (by decide) _) (ends_digit (by decide) _) (List.cons.inj h).2
  obtain ⟨hday, h⟩ := zeroPad_read (ends_digit (by decide) _) (ends_digit (by decide) _) (List.cons.inj h).2
  obtain ⟨hhour, h⟩ := zeroPad_read (ends_digit (by decide) _) (ends_digit (by decide) _) (List.cons.inj h).2
  obtain ⟨hminute, h⟩ := zeroPad_read (ends_digit (by decide) _) (ends_digit (by decide) _) (List.cons.inj h).2
  obtain ⟨hsecond, h⟩ := zeroPad_read (ends_fractionText _) (ends_fractionText _) (List.cons.inj h).2
  have hfraction := fractionText_injective h
  have hyearA : 1 ≤ (civilFromDays (a / 86400000000)).1 := (of_decide_eq_true ha).1
  have hyearB : 1 ≤ (civilFromDays (b / 86400000000)).1 := (of_decide_eq_true hb).1
  have hdate : civilFromDays (a / 86400000000) = civilFromDays (b / 86400000000) := by
    obtain ⟨-, hmonthA, hdayA⟩ := daysFromCivil_civilFromDays (a / 86400000000)
    obtain ⟨-, hmonthB, hdayB⟩ := daysFromCivil_civilFromDays (b / 86400000000)
    refine Prod.ext ?_ (Prod.ext ?_ ?_)
    · omega
    · omega
    · omega
  have hdays := civilFromDays_injective hdate
  change @Eq ℤ a b
  omega

end TaxStamp
