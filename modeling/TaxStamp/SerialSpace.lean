import TaxStamp.Lifecycle

/-!
# The serial space

A chunk claims consecutive numbers from the counter of its category and year and prints
one stamp per number in the same transaction, so a rolled back chunk gives its numbers
back. The serials of a category and year are therefore, in the order of printing, the
formatted numbers from one up to the counter.
-/

namespace TaxStamp

open Lib

/-- The stamps issued for a category in a year. -/
def stampsIssued (stamps : List Stamp) (productCategory : String) (year : ℤ) : List Stamp :=
  stamps.filter fun s => s.productCategory = productCategory && Time.year s.issuedAt = year

/-- The serial space is used once and without gaps: the serials of every category and year are the formatted
numbers below its counter, in order, and no two stamps share one. -/
structure SerialSpaceExact (db : Db) : Prop where
  positive : ∀ productCategory year, 1 ≤ nextSerial db.serialCounters.rows productCategory year
  serials : ∀ productCategory year, Stamp.serials (stampsIssued db.stamps.rows productCategory year) =
    serialBlock productCategory year 1 (nextSerial db.serialCounters.rows productCategory year - 1).toNat
  nodup : (db.stamps.rows.map Stamp.serial).Nodup

/-- Adjacent blocks make one block. -/
theorem serialBlock_append (productCategory : String) (year start : ℤ) (m n : ℕ) :
    serialBlock productCategory year start m ++ serialBlock productCategory year (start + m) n =
      serialBlock productCategory year start (m + n) := by
  unfold serialBlock
  rw [List.range_add, List.map_append, List.map_map]
  refine congrArg _ (List.map_congr_left fun i _ => congrArg _ ?_)
  push_cast
  omega

/-- Stamps with the same print are issued for the same category and year. -/
theorem serials_relabel {g : Stamp → Stamp} (hg : ∀ s : Stamp, s.SamePrint (g s)) (stamps : List Stamp)
    (productCategory : String) (year : ℤ) :
    Stamp.serials (stampsIssued (stamps.map g) productCategory year) =
      Stamp.serials (stampsIssued stamps productCategory year) := by
  have hkeys : ((fun s : Stamp => decide (s.productCategory = productCategory) &&
      decide (Time.year s.issuedAt = year)) ∘ g) =
      fun s => decide (s.productCategory = productCategory) && decide (Time.year s.issuedAt = year) := by
    funext s
    simp only [Function.comp_apply, (hg s).productCategory, (hg s).issuedAt]
  rw [stampsIssued, List.filter_map, hkeys, Stamp.serials, List.map_map]
  exact List.map_congr_left fun s _ => congrArg _ (hg s).serial

section Printed

variable {settings : Settings} {order : Order} {batchId : Uuid} {now : Time} {added : List Stamp}
  {counters counters' : List SerialCounter} (h : SerialsClaimed settings order batchId now added counters counters')
include h

/-- Printed stamps are issued for the category of their order in the year of the chunk. -/
theorem SerialsClaimed.issued_self : stampsIssued added order.productCategory (Time.year now) = added := by
  refine List.filter_eq_self.mpr fun s hs => ?_
  obtain ⟨stampId, hprint⟩ := h.printed s hs
  rw [hprint]
  simp [newStamp]

/-- They are issued for no other. -/
theorem SerialsClaimed.issued_other {productCategory : String} {year : ℤ}
    (hother : ¬(productCategory = order.productCategory ∧ year = Time.year now)) :
    stampsIssued added productCategory year = [] := by
  refine List.filter_eq_nil_iff.mpr fun s hs hmatch => hother ?_
  obtain ⟨stampId, hprint⟩ := h.printed s hs
  rw [hprint] at hmatch
  simp only [newStamp, Bool.and_eq_true] at hmatch
  exact ⟨(of_decide_eq_true hmatch.1).symm, (of_decide_eq_true hmatch.2).symm⟩

end Printed

/-- Every transaction keeps the serial space exact. -/
theorem SerialSpaceExact.step {settings : Settings} {db db' : Db} (h : SerialSpaceExact db)
    (hstep : StampStep settings db db') : SerialSpaceExact db' := by
  refine ⟨?_, ?_, serials_nodup db'.stamps⟩
  · intro productCategory year
    cases hstep with
    | same hS hV hC =>
      rw [hC]
      exact h.positive productCategory year
    | marked now p f kind eligible hmarking heligible hmarks hC =>
      rw [hC]
      exact h.positive productCategory year
    | printed order batchId now added hS hV hclaimed =>
      have hpositive := h.positive productCategory year
      rw [hclaimed.counters]
      split <;> omega
  · intro productCategory year
    cases hstep with
    | same hS hV hC =>
      rw [hS, hC]
      exact h.serials productCategory year
    | marked now p f kind eligible hmarking heligible hmarks hC =>
      obtain ⟨g, hrows, hg⟩ := hmarks.samePrint hmarking
      rw [hrows, hC, serials_relabel hg]
      exact h.serials productCategory year
    | printed order batchId now added hS hV hclaimed =>
      have hpositive := h.positive productCategory year
      have hold := h.serials productCategory year
      rw [hS, stampsIssued, List.filter_append, Stamp.serials, List.map_append]
      change Stamp.serials (stampsIssued db.stamps.rows productCategory year) ++
        Stamp.serials (stampsIssued added productCategory year) = _
      rw [hold, hclaimed.counters]
      by_cases hkey : productCategory = order.productCategory ∧ year = Time.year now
      · obtain ⟨rfl, rfl⟩ := hkey
        rw [hclaimed.issued_self, hclaimed.serials, if_pos ⟨rfl, rfl⟩]
        have hstart : nextSerial db.serialCounters.rows order.productCategory (Time.year now) =
            1 + ((nextSerial db.serialCounters.rows order.productCategory (Time.year now) - 1).toNat : ℤ) := by
          omega
        have hcount : (nextSerial db.serialCounters.rows order.productCategory (Time.year now) + added.length - 1).toNat =
            (nextSerial db.serialCounters.rows order.productCategory (Time.year now) - 1).toNat + added.length := by
          omega
        rw [hcount, ← serialBlock_append, ← hstart]
      · rw [hclaimed.issued_other hkey, if_neg hkey, Int.add_zero]
        exact List.append_nil _

/-- After every run, the serials of every category and year are exactly the formatted numbers below its counter,
each printed once. -/
theorem serial_space_exact (settings : Settings) (companies : Table companySchema) (tariffs : Table tariffSchema)
    (events : List Event) : SerialSpaceExact (run (step settings) (.initial companies tariffs) events).db := by
  refine run_invariant (fun s => SerialSpaceExact s.db) (fun s e h => h.step (step_change settings s e).stampStep) _ ?_
    events
  exact ⟨fun _ _ => Int.le_refl 1, fun _ _ => rfl, List.nodup_nil⟩

end TaxStamp
