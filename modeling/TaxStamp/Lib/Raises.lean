import Mathlib.Logic.Basic

/-!
# Errors a computation can raise

What a chain of fallible steps can raise is what its first step can raise, and what the
rest can raise after the first one has succeeded.
-/

namespace TaxStamp.Lib

variable {ε α β : Type} {p : ε → Prop}

/-- Every error of the computation satisfies the predicate. -/
def OnlyRaises (p : ε → Prop) (x : Except ε α) : Prop := ∀ e, x = .error e → p e

/-- The error a computation ends in. -/
def raised : Except ε α → Option ε
  | .error e => some e
  | .ok _ => none

/-- A computation that ends in an error outside the predicate raises it. -/
theorem not_onlyRaises {x : Except ε α} {e : ε} (hraised : raised x = some e) (h : ¬p e) : ¬OnlyRaises p x := by
  intro hall
  cases x with
  | error e' =>
    injection hraised with heq
    exact h (heq ▸ hall e' rfl)
  | ok a => cases hraised

/-- A computation that succeeds raises nothing. -/
@[simp] theorem onlyRaises_ok {a : α} : OnlyRaises p (.ok a : Except ε α) := by
  intro e h
  cases h

/-- A computation that fails raises its error. -/
@[simp] theorem onlyRaises_error {e : ε} : OnlyRaises p (.error e : Except ε α) ↔ p e := by
  constructor
  · intro h
    exact h e rfl
  · rintro h e' heq
    injection heq with heq
    exact heq ▸ h

/-- The second step of two is looked at only after the first one has succeeded. -/
@[simp] theorem onlyRaises_bind {x : Except ε α} {f : α → Except ε β} :
    OnlyRaises p (x >>= f) ↔ OnlyRaises p x ∧ ∀ a, x = .ok a → OnlyRaises p (f a) := by
  cases x with
  | error e =>
    change OnlyRaises p (.error e : Except ε β) ↔ _
    simp
  | ok a =>
    change OnlyRaises p (f a) ↔ _
    simp

/-- A check that refuses on a condition raises its error where the condition holds. -/
theorem onlyRaises_refuseIf {condition : Prop} [Decidable condition] {e : ε} {f : α → Except ε β}
    {rest : Except ε β} :
    OnlyRaises p (if condition then Except.error e >>= f else rest) ↔
      (condition → p e) ∧ (¬condition → OnlyRaises p rest) := by
  split
  · rename_i hcondition
    simp [hcondition]
  · rename_i hcondition
    simp [hcondition]

end TaxStamp.Lib
