import Mathlib.Algebra.BigOperators.Group.List.Lemmas
import Mathlib.Algebra.Order.BigOperators.Group.List
import Mathlib.Algebra.Order.Group.Int
import Mathlib.Data.List.Nodup
import Mathlib.Tactic.Linarith

/-!
# Sums over keyed rows

Two lists of rows with a key each and an amount each. If the keys of the first list are
different and every row of it has a row of the second list under its key with an amount at
least as large, then the amounts of the first list add up to no more than those of the
second. A row of the second list that is left over makes the difference strict.
-/

namespace TaxStamp.Lib

variable {α β κ : Type} {key : α → κ} {amount : α → ℤ} {key' : β → κ} {amount' : β → ℤ}

/-- The rows are covered by others under the same keys. -/
def Covered (key : α → κ) (amount : α → ℤ) (key' : β → κ) (amount' : β → ℤ) (rows : List α) (others : List β) : Prop :=
  ∀ a ∈ rows, ∃ b ∈ others, key' b = key a ∧ amount a ≤ amount' b

/-- A row whose key the covered rows do not have is not needed to cover them. -/
theorem Covered.remove {rows : List α} {before after : List β} {b : β}
    (h : Covered key amount key' amount' rows (before ++ b :: after)) (hkey : ∀ a ∈ rows, key' b ≠ key a) :
    Covered key amount key' amount' rows (before ++ after) := by
  intro a ha
  obtain ⟨c, hc, hsame, hle⟩ := h a ha
  refine ⟨c, ?_, hsame, hle⟩
  rw [List.mem_append, List.mem_cons] at hc
  obtain hc | rfl | hc := hc
  · exact List.mem_append_left _ hc
  · exact absurd hsame (hkey a ha)
  · exact List.mem_append_right _ hc

/-- Taking a row out of the middle takes its amount out of the sum. -/
theorem sum_map_middle (amount' : β → ℤ) (before after : List β) (b : β) :
    ((before ++ b :: after).map amount').sum = amount' b + ((before ++ after).map amount').sum := by
  simp only [List.map_append, List.map_cons, List.sum_append, List.sum_cons]
  omega

/-- Covered rows add up to no more than the rows that cover them. -/
theorem Covered.sum_le {rows : List α} {others : List β} (h : Covered key amount key' amount' rows others)
    (hdistinct : (rows.map key).Nodup) (hnonneg : ∀ b ∈ others, 0 ≤ amount' b) :
    (rows.map amount).sum ≤ (others.map amount').sum := by
  induction rows generalizing others with
  | nil =>
    apply List.sum_nonneg
    intro n hn
    obtain ⟨b, hb, rfl⟩ := List.mem_map.mp hn
    exact hnonneg b hb
  | cons a rest ih =>
    rw [List.map_cons, List.nodup_cons] at hdistinct
    obtain ⟨b, hb, hsame, hle⟩ := h a List.mem_cons_self
    obtain ⟨before, after, rfl⟩ := List.append_of_mem hb
    have hrest : Covered key amount key' amount' rest (before ++ after) := by
      apply Covered.remove (b := b)
      · exact fun c hc => h c (List.mem_cons_of_mem a hc)
      · intro c hc hkey
        exact hdistinct.1 (List.mem_map.mpr ⟨c, hc, hkey.symm.trans hsame⟩)
    have hsum := ih hrest hdistinct.2 fun c hc => hnonneg c (by
      rw [List.mem_append] at hc
      rw [List.mem_append, List.mem_cons]
      exact hc.imp id .inr)
    rw [sum_map_middle, List.map_cons, List.sum_cons]
    omega

/-- A positive row under a key of its own makes the difference. -/
theorem Covered.sum_lt {rows : List α} {others : List β} (h : Covered key amount key' amount' rows others)
    (hdistinct : (rows.map key).Nodup) (hnonneg : ∀ b ∈ others, 0 ≤ amount' b) {b : β} (hb : b ∈ others)
    (hpositive : 0 < amount' b) (hkey : ∀ a ∈ rows, key' b ≠ key a) :
    (rows.map amount).sum < (others.map amount').sum := by
  obtain ⟨before, after, rfl⟩ := List.append_of_mem hb
  have hsum := (h.remove hkey).sum_le hdistinct fun c hc => hnonneg c (by
    rw [List.mem_append] at hc
    rw [List.mem_append, List.mem_cons]
    exact hc.imp id .inr)
  rw [sum_map_middle]
  omega

/-- Two lists that cover each other have the same sum, and covered rows have the sum of the others only if they
use every positive one. -/
theorem Covered.sum_eq_iff {rows : List α} {others : List β} (h : Covered key amount key' amount' rows others)
    (hdistinct : (rows.map key).Nodup) (hdistinct' : (others.map key').Nodup)
    (hnonneg : ∀ a ∈ rows, 0 ≤ amount a) (hpositive : ∀ b ∈ others, 0 < amount' b)
    (hexact : ∀ a ∈ rows, ∀ b ∈ others, key' b = key a → amount a = amount' b) :
    (rows.map amount).sum = (others.map amount').sum ↔ ∀ b ∈ others, ∃ a ∈ rows, key a = key' b := by
  have hle := h.sum_le hdistinct fun b hb => (hpositive b hb).le
  constructor
  · intro hsum b hb
    by_contra hunused
    push Not at hunused
    have hlt := h.sum_lt hdistinct (fun b hb => (hpositive b hb).le) hb (hpositive b hb)
      fun a ha hkey => hunused a ha hkey.symm
    omega
  · intro hused
    have hback : Covered key' amount' key amount others rows := by
      intro b hb
      obtain ⟨a, ha, hkey⟩ := hused b hb
      exact ⟨a, ha, hkey, (hexact a ha b hb hkey.symm).ge⟩
    have hge := hback.sum_le hdistinct' hnonneg
    omega

/-- A sum over rows is the sum over their keys of the sums over the rows under each key. -/
theorem sum_by_key [DecidableEq κ] (key : α → κ) (key' : β → κ) (amount : α → ℤ) {rows : List α} {others : List β}
    (hdistinct : (others.map key').Nodup) (hall : ∀ a ∈ rows, ∃ b ∈ others, key' b = key a) :
    (rows.map amount).sum = (others.map fun b => ((rows.filter fun a => key a = key' b).map amount).sum).sum := by
  induction others generalizing rows with
  | nil =>
    have hnone : rows = [] := by
      apply List.eq_nil_iff_forall_not_mem.mpr
      intro a ha
      obtain ⟨b, hb, -⟩ := hall a ha
      cases hb
    rw [hnone]
    rfl
  | cons b rest ih =>
    rw [List.map_cons, List.nodup_cons] at hdistinct
    have hrest := @ih (rows.filter fun a => !decide (key a = key' b)) hdistinct.2 (by
      intro a ha
      obtain ⟨hrow, hother⟩ := List.mem_filter.mp ha
      obtain ⟨c, hc, hkey⟩ := hall a hrow
      obtain rfl | hc := List.mem_cons.mp hc
      · simp [hkey] at hother
      · exact ⟨c, hc, hkey⟩)
    -- The rows under the keys that are left do not have the first key.
    have hsame : ∀ c ∈ rest, (rows.filter fun a => !decide (key a = key' b)).filter (fun a => key a = key' c) =
        rows.filter fun a => key a = key' c := by
      intro c hc
      rw [List.filter_filter]
      apply List.filter_congr
      intro a _
      by_cases hkey : key a = key' c
      · have hne : key' c ≠ key' b := fun heq => hdistinct.1 (List.mem_map.mpr ⟨c, hc, heq⟩)
        simp [hkey, hne]
      · simp [hkey]
    have hperm := (List.filter_append_perm (fun a => decide (key a = key' b)) rows).map amount
    have hsum := hperm.sum_eq
    rw [List.map_append, List.sum_append, hrest] at hsum
    rw [← hsum, List.map_cons, List.sum_cons]
    congr 2
    apply List.map_congr_left
    intro c hc
    rw [hsame c hc]

/-- Sums of smaller amounts are equal exactly when the amounts are. -/
theorem sum_eq_iff_of_le {rows : List α} {amount amount' : α → ℤ} (hle : ∀ a ∈ rows, amount a ≤ amount' a) :
    (rows.map amount).sum = (rows.map amount').sum ↔ ∀ a ∈ rows, amount a = amount' a := by
  induction rows with
  | nil => simp
  | cons a rest ih =>
    have hhead := hle a List.mem_cons_self
    have htail : ∀ b ∈ rest, amount b ≤ amount' b := fun b hb => hle b (List.mem_cons_of_mem a hb)
    have hsum := List.sum_le_sum htail
    rw [List.forall_mem_cons, ← ih htail, List.map_cons, List.map_cons, List.sum_cons, List.sum_cons]
    omega

/-- Rewriting the one row under a key changes the sum by that row alone. -/
theorem sum_map_rewrite (key : α → κ) {rows : List α} [DecidableEq κ] (f : α → α) {a : α} (ha : a ∈ rows)
    (hdistinct : (rows.map key).Nodup) :
    ((rows.map fun row => if key row = key a then f row else row).map amount).sum =
      (rows.map amount).sum + (amount (f a) - amount a) := by
  obtain ⟨before, after, rfl⟩ := List.append_of_mem ha
  have hother : ∀ row ∈ before ++ after, key row ≠ key a := by
    intro row hrow hsame
    have hperm : ((before ++ a :: after).map key).Perm (key a :: (before ++ after).map key) :=
      List.perm_middle.map key
    have hnodup := hperm.nodup_iff.mp hdistinct
    rw [List.nodup_cons] at hnodup
    exact hnodup.1 (List.mem_map.mpr ⟨row, hrow, hsame⟩)
  have hkept : ∀ part : List α, (∀ row ∈ part, key row ≠ key a) →
      part.map (fun row => if key row = key a then f row else row) = part := by
    intro part hpart
    conv_rhs => rw [← List.map_id part]
    apply List.map_congr_left
    intro row hrow
    rw [if_neg (hpart row hrow), id]
  rw [List.map_append, List.map_cons, if_pos rfl,
    hkept before fun row hrow => hother row (List.mem_append_left _ hrow),
    hkept after fun row hrow => hother row (List.mem_append_right _ hrow), sum_map_middle, sum_map_middle]
  omega

end TaxStamp.Lib
