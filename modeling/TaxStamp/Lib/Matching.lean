import Mathlib.Data.List.Forall2
import Mathlib.Data.List.Nodup
import Mathlib.Data.List.Perm.Basic
import Mathlib.Logic.Relation

/-!
# Lists that match row by row

Two lists are related row by row when a relation holds between their rows at every place.
When related rows have the same key, and the keys of the second list are different, a list
matches the second one in some order exactly when it has the same keys, each of them once,
and every row of it is related to a row of the other.
-/

namespace TaxStamp.Lib

open List

variable {α β γ κ : Type} {R R' : α → β → Prop} {S : β → γ → Prop}

/-- A relation may be weakened where the second list is. -/
theorem forall₂_imp_of_mem {rows : List α} {others : List β} (himp : ∀ a, ∀ b ∈ others, R a b → R' a b)
    (h : Forall₂ R rows others) : Forall₂ R' rows others := by
  induction h with
  | nil => exact .nil
  | cons hhead _ ih =>
    exact .cons (himp _ _ mem_cons_self hhead) (ih fun a b hb => himp a b (mem_cons_of_mem _ hb))

/-- Every row of the first list is related to one of the second. -/
theorem exists_of_forall₂ {rows : List α} {others : List β} (h : Forall₂ R rows others) {a : α} (ha : a ∈ rows) :
    ∃ b ∈ others, R a b := by
  induction h with
  | nil => cases ha
  | cons hhead _ ih =>
    obtain rfl | ha := mem_cons.mp ha
    · exact ⟨_, mem_cons_self, hhead⟩
    · obtain ⟨b, hb, hrel⟩ := ih ha
      exact ⟨b, mem_cons_of_mem _ hb, hrel⟩

/-- Rows that are all related to rows of a list match a list of such rows. -/
theorem exists_forall₂ {rows : List α} {others : List β} (h : ∀ a ∈ rows, ∃ b ∈ others, R a b) :
    ∃ chosen, Forall₂ R rows chosen ∧ ∀ b ∈ chosen, b ∈ others := by
  induction rows with
  | nil => exact ⟨[], .nil, fun b hb => absurd hb not_mem_nil⟩
  | cons a rest ih =>
    obtain ⟨b, hb, hrel⟩ := h a mem_cons_self
    obtain ⟨chosen, hrest, hmem⟩ := ih fun c hc => h c (mem_cons_of_mem a hc)
    refine ⟨b :: chosen, .cons hrel hrest, ?_⟩
    intro c hc
    obtain rfl | hc := mem_cons.mp hc
    · exact hb
    · exact hmem c hc

/-- Lists match by way of a third one exactly when their rows are related by way of a third row. -/
theorem forall₂_comp {rows : List α} {others : List γ} :
    Forall₂ (Relation.Comp R S) rows others ↔ ∃ between, Forall₂ R rows between ∧ Forall₂ S between others := by
  constructor
  · intro h
    induction h with
    | nil => exact ⟨[], .nil, .nil⟩
    | cons hhead _ ih =>
      obtain ⟨b, hfirst, hsecond⟩ := hhead
      obtain ⟨between, hbefore, hafter⟩ := ih
      exact ⟨b :: between, .cons hfirst hbefore, .cons hsecond hafter⟩
  · intro h
    obtain ⟨between, hbefore, hafter⟩ := h
    induction hbefore generalizing others with
    | nil =>
      cases hafter
      exact .nil
    | cons hfirst _ ih =>
      cases hafter with
      | cons hsecond hrest => exact .cons ⟨_, hfirst, hsecond⟩ (ih hrest)

variable {key : α → κ} {key' : β → κ}

/-- Matching lists have the same keys in the same order. -/
theorem map_eq_of_forall₂ (hkey : ∀ a b, R a b → key a = key' b) {rows : List α} {others : List β}
    (h : Forall₂ R rows others) : rows.map key = others.map key' := by
  induction h with
  | nil => rfl
  | cons hhead _ ih => rw [map_cons, map_cons, hkey _ _ hhead, ih]

/-- Rows match keyed ones in some order exactly when they have the same keys, each of them once, and every row is
related to one of the others. -/
theorem exists_perm_forall₂_iff (hkey : ∀ a b, R a b → key a = key' b) {rows : List α} {others : List β}
    (hdistinct : (others.map key').Nodup) :
    (∃ chosen, chosen.Perm others ∧ Forall₂ R rows chosen) ↔
      (rows.map key).Nodup ∧ (∀ k, k ∈ rows.map key ↔ k ∈ others.map key') ∧ ∀ a ∈ rows, ∃ b ∈ others, R a b := by
  constructor
  · intro h
    obtain ⟨chosen, hperm, hmatch⟩ := h
    have hkeys := hperm.map key'
    rw [← map_eq_of_forall₂ hkey hmatch] at hkeys
    refine ⟨hkeys.nodup_iff.mpr hdistinct, fun k => hkeys.mem_iff, fun a ha => ?_⟩
    obtain ⟨b, hb, hrel⟩ := exists_of_forall₂ hmatch ha
    exact ⟨b, hperm.mem_iff.mp hb, hrel⟩
  · intro h
    obtain ⟨hnodup, hkeys, hrelated⟩ := h
    obtain ⟨chosen, hmatch, hmem⟩ := exists_forall₂ hrelated
    refine ⟨chosen, ?_, hmatch⟩
    have hchosen := map_eq_of_forall₂ hkey hmatch
    rw [hchosen] at hnodup hkeys
    apply (perm_ext_iff_of_nodup (Nodup.of_map key' hnodup) (Nodup.of_map key' hdistinct)).mpr
    intro b
    refine ⟨hmem b, fun hb => ?_⟩
    -- Some chosen row has the key of this one, and it is among the others, whose keys are different.
    obtain ⟨c, hc, hsame⟩ := mem_map.mp ((hkeys (key' b)).mpr (mem_map_of_mem hb))
    rwa [← inj_on_of_nodup_map hdistinct (hmem c hc) hb hsame]

end TaxStamp.Lib
