import TaxStamp.Lib.Tx

/-!
# Two runs in lockstep

Two transactions that start from different states may still take the same decisions. They
are compared part by part: as long as their parts are refused for the same fault, or both
finish in related ways, they go on together, and what is to be shown of the whole runs is
shown of the rest.
-/

namespace TaxStamp.Lib.Tx

variable {σ τ ε α β γ δ : Type} {s : σ} {t : τ}

/-- Two runs are refused for one fault, or both finish, in related ways. -/
inductive Lockstep (P : α × σ → β × τ → Prop) : Except ε (α × σ) → Except ε (β × τ) → Prop
  | refused (e : ε) : Lockstep P (.error e) (.error e)
  | finished {r : α × σ} {r' : β × τ} (h : P r r') : Lockstep P (.ok r) (.ok r')

/-- What holds of two refusals, and of the rest after any two related ends of the first parts, holds of two sequences. -/
theorem Lockstep.bind {P : α × σ → β × τ → Prop} {x : Tx σ ε α} {y : Tx τ ε β} {f : α → Tx σ ε γ} {g : β → Tx τ ε δ}
    {R : Except ε (γ × σ) → Except ε (δ × τ) → Prop} (h : Lockstep P (x s) (y t)) (hrefused : ∀ e, R (.error e) (.error e))
    (hrest : ∀ a s' b t', P (a, s') (b, t') → R (f a s') (g b t')) : R ((x >>= f) s) ((y >>= g) t) := by
  generalize hx : x s = result at h
  generalize hy : y t = result' at h
  cases h with
  | refused e =>
    rw [bind_of_error f hx, bind_of_error g hy]
    exact hrefused e
  | finished hrelated =>
    rw [bind_of_ok f hx, bind_of_ok g hy]
    exact hrest _ _ _ _ hrelated

/-- Requirements that hold alike are in lockstep. -/
theorem Lockstep.require {condition condition' : Prop} [Decidable condition] [Decidable condition'] (e : ε)
    (h : condition ↔ condition') : Lockstep (fun r r' => r = ((), s) ∧ r' = ((), t)) (Tx.require condition e s)
      (Tx.require condition' e t) := by
  unfold Tx.require
  by_cases hholds : condition
  · rw [if_pos hholds, if_pos (h.mp hholds)]
    exact .finished ⟨rfl, rfl⟩
  · rw [if_neg hholds, if_neg fun h' => hholds (h.mpr h')]
    exact .refused e

/-- What is to be shown of the state that is committed, together with whether the run has finished. -/
theorem commit_cases {x : Tx σ ε α} (Q : Bool → σ → Prop) (hrefused : Q false s)
    (hfinished : ∀ a s', x s = .ok (a, s') → Q true s') : Q (x s).isOk (x.commit s) := by
  unfold commit
  cases hx : x s with
  | error e => exact hrefused
  | ok r => exact hfinished r.1 r.2 hx

end TaxStamp.Lib.Tx
