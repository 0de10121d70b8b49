import TaxStamp.Lib.Tx

/-!
# Refusals of transactions

What a transaction is refused for is what its first part is refused for, or what the rest
is refused for after the first part has finished. The lemmas take a refused transaction
apart as those of the transactions take a finished one.
-/

namespace TaxStamp.Lib.Tx

variable {σ ε α β : Type} {s : σ} {e : ε}

/-- A sequence is refused by its first part, or by the rest from where its first part finishes. -/
theorem bind_error {x : Tx σ ε α} {f : α → Tx σ ε β} :
    (x >>= f) s = .error e ↔ x s = .error e ∨ ∃ a s', x s = .ok (a, s') ∧ f a s' = .error e := by
  cases hx : x s with
  | error e' =>
    rw [bind_of_error f hx]
    simp
  | ok r =>
    obtain ⟨a, s'⟩ := r
    rw [bind_of_ok f hx]
    simp

/-- A sequence goes on with the value of a lifted computation that succeeds. -/
theorem bind_lift {x : Except ε α} (f : α → Tx σ ε β) {a : α} (h : x = .ok a) : (lift x >>= f) s = f a s :=
  bind_of_ok f (lift_ok.mpr ⟨h, rfl⟩)

/-- A lifted computation is refused for its own error. -/
@[simp] theorem lift_error {x : Except ε α} : lift x s = .error e ↔ x = .error e := by
  unfold lift
  cases x <;> simp

end TaxStamp.Lib.Tx
