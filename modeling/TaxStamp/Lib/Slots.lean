import Mathlib.Data.List.Basic
import Mathlib.Tactic.Common

/-!
# Processes in slots

Concurrent processes are kept in the slots of a list and addressed by their position. A
process is replaced by writing its slot; the lemmas below say what the other slots hold
afterwards.
-/

namespace TaxStamp.Lib

variable {α : Type} {l : List α} {i : ℕ} {a a' : α}

/-- After writing a slot, it holds the new process and every other slot holds the old one. -/
theorem getElem?_set_iff (ha : l[i]? = some a) {j : ℕ} {b : α} :
    (l.set i a')[j]? = some b ↔ (j = i ∧ b = a') ∨ (j ≠ i ∧ l[j]? = some b) := by
  have hlt : i < l.length := (List.getElem?_eq_some_iff.mp ha).1
  by_cases hj : j = i
  · subst hj
    rw [List.getElem?_set_self hlt]
    simp [eq_comm]
  · rw [List.getElem?_set_ne (Ne.symm hj)]
    simp [hj]

/-- The new process is in its slot. -/
theorem mem_set_self (ha : l[i]? = some a) : a' ∈ l.set i a' :=
  List.mem_of_getElem? ((getElem?_set_iff ha).mpr (.inl ⟨rfl, rfl⟩))

/-- Replacing a process that does not satisfy a property adds what the new one satisfies. -/
theorem exists_mem_set {P : α → Prop} (ha : l[i]? = some a) (hnot : ¬P a) :
    (∃ b ∈ l.set i a', P b) ↔ (∃ b ∈ l, P b) ∨ P a' := by
  constructor
  · rintro ⟨b, hb, hP⟩
    rcases List.mem_or_eq_of_mem_set hb with hold | rfl
    · exact .inl ⟨b, hold, hP⟩
    · exact .inr hP
  · rintro (⟨b, hb, hP⟩ | hP)
    · obtain ⟨j, hj⟩ := List.mem_iff_getElem?.mp hb
      have hne : j ≠ i := by
        rintro rfl
        rw [hj] at ha
        exact hnot (Option.some.inj ha ▸ hP)
      exact ⟨b, List.mem_of_getElem? ((getElem?_set_iff ha).mpr (.inr ⟨hne, hj⟩)), hP⟩
    · exact ⟨a', mem_set_self ha, hP⟩

end TaxStamp.Lib
