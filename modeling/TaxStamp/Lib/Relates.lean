import Mathlib.Order.Defs.Unbundled
import TaxStamp.Lib.Table

/-!
# Relations that transactions respect

What a transaction does to a part of the state is often a relation between the state it
starts from and the state it ends in, such as "nothing else is added". Where the relation
is a preorder, it passes from the parts of a transaction to the whole.
-/

namespace TaxStamp.Lib.Tx

variable {σ ε α β : Type} {R : σ → σ → Prop}

/-- Every finished run leads to a related state. -/
def Relates (R : σ → σ → Prop) (x : Tx σ ε α) : Prop := ∀ s a s', x s = .ok (a, s') → R s s'

/-- Committing a transaction leads to a related state. -/
theorem Relates.commit [Std.Refl R] {x : Tx σ ε α} (h : Relates R x) (s : σ) : R s (x.commit s) :=
  commit_induction (R s) (Std.Refl.refl s) (h s)

/-- A sequence respects what its parts respect. -/
theorem Relates.bind [IsTrans σ R] {x : Tx σ ε α} {f : α → Tx σ ε β} (hx : Relates R x) (hf : ∀ a, Relates R (f a)) :
    Relates R (x >>= f) := by
  intro s b t h
  obtain ⟨a, s', hfirst, hrest⟩ := bind_ok.mp h
  exact IsTrans.trans s s' t (hx s a s' hfirst) (hf a s' b t hrest)

/-- A choice respects what its branches respect. -/
theorem Relates.ite {condition : Prop} [Decidable condition] {x y : Tx σ ε α} (hx : Relates R x) (hy : Relates R y) :
    Relates R (if condition then x else y) := by
  split
  · exact hx
  · exact hy

section Reading

variable [Std.Refl R]

/-- A transaction that only reads respects every reflexive relation. -/
theorem Relates.of_reads {x : Tx σ ε α} (h : ∀ s a s', x s = .ok (a, s') → s = s') : Relates R x := by
  intro s a s' hx
  rw [h s a s' hx]
  exact Std.Refl.refl s'

/-- A result changes nothing. -/
theorem Relates.pure (a : α) : Relates R (Pure.pure a : Tx σ ε α) :=
  .of_reads fun _ _ _ h => (pure_ok.mp h).2

/-- A requirement changes nothing. -/
theorem Relates.require (condition : Prop) [Decidable condition] (e : ε) : Relates R (Tx.require condition e) :=
  .of_reads fun _ _ _ h => (require_ok.mp h).2

/-- A lifted computation changes nothing. -/
theorem Relates.lift (x : Except ε α) : Relates R (Tx.lift x) :=
  .of_reads fun _ _ _ h => (lift_ok.mp h).2

end Reading

/-- A write respects a relation between a state and every replacement of the table. -/
theorem Relates.write {S : Schema α} {F : Field σ (Table S)} (h : ∀ s t, R s (F.set t s)) (refusal : Rejection → ε)
    (f : Table S → Except Rejection (Table S)) : Relates R (Lib.write F refusal f) := by
  intro s u s' hw
  obtain ⟨t, -, rfl⟩ := write_ok.mp hw
  exact h s t

end TaxStamp.Lib.Tx
