import Mathlib.Data.List.Nodup
import Mathlib.Data.List.Perm.Basic
import Mathlib.Tactic.Common

/-!
# Trails

The log of a walk along the edges of a graph: every step names the node it leaves and the
node it enters, and the first step enters the start from nowhere. When every edge goes up
in some rank the walk never comes back, so the log is one simple path.
-/

namespace TaxStamp.Lib

variable {α : Type}

/-- The logged steps of a walk from `first` that has come to a node. -/
inductive Trail (edge : α → α → Prop) (first : α) : List (Option α × α) → α → Prop
  | start : Trail edge first [(none, first)] first
  | extend {steps : List (Option α × α)} {a b : α} (h : Trail edge first steps a) (hedge : edge a b) :
      Trail edge first (steps ++ [(some a, b)]) b

namespace Trail

variable {edge : α → α → Prop} {first current : α} {steps : List (Option α × α)}

/-- Exactly one step comes from nowhere, and it enters the start. -/
theorem initial (h : Trail edge first steps current) :
    steps.filter (fun step => step.1.isNone) = [(none, first)] := by
  induction h with
  | start => rfl
  | extend h hedge ih =>
    rw [List.filter_append, ih]
    rfl

/-- Every other step goes along an edge. -/
theorem along (h : Trail edge first steps current) : ∀ step ∈ steps, ∀ a, step.1 = some a → edge a step.2 := by
  induction h with
  | start =>
    intro step hstep a ha
    rw [List.mem_singleton.mp hstep] at ha
    cases ha
  | extend h hedge ih =>
    intro step hstep a ha
    rcases List.mem_append.mp hstep with hold | hnew
    · exact ih step hold a ha
    · rw [List.mem_singleton.mp hnew] at ha ⊢
      cases ha
      exact hedge

/-- The walk has entered the node it has come to. -/
theorem current_mem (h : Trail edge first steps current) : current ∈ steps.map Prod.snd := by
  cases h with
  | start => exact List.mem_singleton_self _
  | extend h hedge =>
    rw [List.map_append]
    exact List.mem_append_right _ (List.mem_singleton_self _)

/-- A node that is left was entered. -/
theorem linked (h : Trail edge first steps current) :
    ∀ step ∈ steps, ∀ a, step.1 = some a → a ∈ steps.map Prod.snd := by
  induction h with
  | start =>
    intro step hstep a ha
    rw [List.mem_singleton.mp hstep] at ha
    cases ha
  | extend h hedge ih =>
    intro step hstep a ha
    rw [List.map_append]
    refine List.mem_append_left _ ?_
    rcases List.mem_append.mp hstep with hold | hnew
    · exact ih step hold a ha
    · rw [List.mem_singleton.mp hnew] at ha
      cases ha
      exact h.current_mem

section Rank

variable {rank : α → ℕ} (hrank : ∀ a b, edge a b → rank a < rank b)
include hrank

/-- No entered node is above the one the walk has come to. -/
theorem rank_le (h : Trail edge first steps current) : ∀ a ∈ steps.map Prod.snd, rank a ≤ rank current := by
  induction h with
  | start =>
    intro a ha
    obtain rfl := List.mem_singleton.mp ha
    exact Nat.le_refl _
  | extend h hedge ih =>
    intro a ha
    rw [List.map_append] at ha
    rcases List.mem_append.mp ha with hold | hnew
    · exact Nat.le_trans (ih a hold) (Nat.le_of_lt (hrank _ _ hedge))
    · obtain rfl := List.mem_singleton.mp hnew
      exact Nat.le_refl _

/-- The node the walk has come to is not left. -/
theorem not_left (h : Trail edge first steps current) : ∀ step ∈ steps, step.1 ≠ some current := by
  intro step hstep hleft
  have hup := hrank _ _ (h.along step hstep current hleft)
  exact absurd (h.rank_le hrank step.2 (List.mem_map_of_mem hstep)) (Nat.not_le.mpr hup)

/-- No node is entered twice. -/
theorem entered_nodup (h : Trail edge first steps current) : (steps.map Prod.snd).Nodup := by
  induction h with
  | start => exact List.nodup_singleton _
  | @extend steps a b h hedge ih =>
    rw [List.map_append]
    refine ih.append (List.nodup_singleton _) ?_
    intro c hc hb
    rw [List.mem_singleton.mp hb] at hc
    exact absurd (h.rank_le hrank b hc) (Nat.not_le.mpr (hrank a b hedge))

/-- No node is left twice. -/
theorem left_nodup (h : Trail edge first steps current) : (steps.filterMap Prod.fst).Nodup := by
  induction h with
  | start => exact List.nodup_nil
  | @extend steps a b h hedge ih =>
    rw [List.filterMap_append]
    refine ih.append (List.nodup_singleton _) ?_
    intro c hc ha
    rw [List.mem_singleton.mp ha] at hc
    obtain ⟨step, hstep, hleft⟩ := List.mem_filterMap.mp hc
    exact h.not_left hrank step hstep hleft

end Rank

end Trail

end TaxStamp.Lib
