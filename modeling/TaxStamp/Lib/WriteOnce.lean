import Mathlib.Logic.Function.Basic
import Mathlib.Tactic.Common

/-!
# Write-once maps

A map whose entries are stored at most once and never change. It stands for an external
store that refuses to overwrite: storing under a key that is taken does nothing.
-/

namespace TaxStamp.Lib

/-- A map from keys to the values stored under them. -/
structure WriteOnce (κ ν : Type) where
  get : κ → Option ν

namespace WriteOnce

variable {κ ν : Type} [DecidableEq κ]

/-- Nothing is stored. -/
def empty : WriteOnce κ ν := ⟨fun _ => none⟩

/-- Store a value under a key that is free. -/
def store (m : WriteOnce κ ν) (k : κ) (v : ν) : WriteOnce κ ν :=
  if (m.get k).isSome then m else ⟨Function.update m.get k (some v)⟩

variable {m : WriteOnce κ ν} {k k' : κ} {v v' : ν}

/-- An entry is never overwritten. -/
theorem get_store_of_some (h : m.get k' = some v') : (m.store k v).get k' = some v' := by
  unfold store
  split
  · exact h
  · rename_i hfree
    have hne : k' ≠ k := by
      rintro rfl
      rw [h] at hfree
      exact hfree rfl
    change Function.update m.get k (some v) k' = some v'
    rw [Function.update_of_ne hne]
    exact h

/-- A value stored under a free key is there afterwards. -/
theorem get_store_self (h : m.get k = none) : (m.store k v).get k = some v := by
  have hfree : ¬(m.get k).isSome = true := by
    rw [h]
    simp
  rw [store, if_neg hfree]
  exact Function.update_self k (some v) m.get

/-- Every entry was there before or is the value just stored. -/
theorem get_store_cases (h : (m.store k v).get k' = some v') : m.get k' = some v' ∨ (k' = k ∧ v' = v) := by
  unfold store at h
  split at h
  · exact .inl h
  · change Function.update m.get k (some v) k' = some v' at h
    by_cases hk : k' = k
    · subst hk
      rw [Function.update_self] at h
      exact .inr ⟨rfl, (Option.some.inj h).symm⟩
    · rw [Function.update_of_ne hk] at h
      exact .inl h

/-- Every entry of the first map is in the second. -/
def Extends (m m' : WriteOnce κ ν) : Prop := ∀ k v, m.get k = some v → m'.get k = some v

omit [DecidableEq κ] in
/-- A map has its own entries. -/
theorem Extends.refl (m : WriteOnce κ ν) : m.Extends m := fun _ _ h => h

omit [DecidableEq κ] in
/-- Growth is transitive. -/
theorem Extends.trans {m m' m'' : WriteOnce κ ν} (h : m.Extends m') (h' : m'.Extends m'') : m.Extends m'' :=
  fun k v hk => h' k v (h k v hk)

end WriteOnce

end TaxStamp.Lib
