import Mathlib.Logic.Basic
import Mathlib.Tactic.Common

/-!
# Transactions

A transaction reads and writes a state and either finishes with a result or refuses.
A refusal carries no state: whatever the transaction had written is rolled back, so
committing it leaves the state it started from. The lemmas below take a finished
transaction apart into its consecutive parts.
-/

namespace TaxStamp.Lib

variable {σ ε α β : Type}

/-- A unit of work over the state `σ` that may refuse with an `ε`. -/
def Tx (σ ε α : Type) : Type := σ → Except ε (α × σ)

namespace Tx

instance : Monad (Tx σ ε) where
  pure a := fun s => .ok (a, s)
  bind x f := fun s =>
    match x s with
    | .ok (a, s') => f a s'
    | .error e => .error e

/-- Refuse the whole transaction. -/
def refuse (e : ε) : Tx σ ε α := fun _ => .error e

/-- Refuse unless the condition holds. -/
def require (condition : Prop) [Decidable condition] (e : ε) : Tx σ ε Unit :=
  fun s => if condition then .ok ((), s) else .error e

/-- Run a computation that does not touch the state. -/
def lift (x : Except ε α) : Tx σ ε α := fun s =>
  match x with
  | .ok a => .ok (a, s)
  | .error e => .error e

/-- Unwrap an optional value, refusing when it is absent. -/
def orRefuse (x : Option α) (e : ε) : Tx σ ε α := fun s =>
  match x with
  | some a => .ok (a, s)
  | none => .error e

/-- Read part of the state. -/
def read (f : σ → α) : Tx σ ε α := fun s => .ok (f s, s)

/-- The committed state: the transaction's own when it finished, the old one after a rollback. -/
def commit (x : Tx σ ε α) (s : σ) : σ :=
  match x s with
  | .ok (_, s') => s'
  | .error _ => s

/-- A pure step finishes with its value and an untouched state. -/
@[simp] theorem pure_ok {a b : α} {s s' : σ} :
    (pure a : Tx σ ε α) s = .ok (b, s') ↔ b = a ∧ s = s' := by
  constructor
  · intro h
    injection h with h
    injection h with ha hs
    exact ⟨ha.symm, hs⟩
  · rintro ⟨rfl, rfl⟩
    rfl

/-- A sequence finishes exactly when its first part does and the rest finishes from there. -/
theorem bind_ok {x : Tx σ ε α} {f : α → Tx σ ε β} {b : β} {s t : σ} :
    (x >>= f) s = .ok (b, t) ↔ ∃ a s', x s = .ok (a, s') ∧ f a s' = .ok (b, t) := by
  change (match x s with
    | .ok (a, s') => f a s'
    | .error e => .error e) = .ok (b, t) ↔ _
  cases hx : x s with
  | error e => simp
  | ok r =>
    obtain ⟨a, s'⟩ := r
    constructor
    · intro h
      exact ⟨a, s', rfl, h⟩
    · rintro ⟨a', s'', heq, h⟩
      injection heq with heq
      injection heq with ha hs
      subst ha hs
      exact h

/-- A sequence goes on from where its first part finishes. -/
theorem bind_of_ok {x : Tx σ ε α} (f : α → Tx σ ε β) {a : α} {s s' : σ} (h : x s = .ok (a, s')) :
    (x >>= f) s = f a s' := by
  change (match x s with
    | .ok (a, s') => f a s'
    | .error e => .error e) = _
  rw [h]

/-- A sequence is refused when its first part is. -/
theorem bind_of_error {x : Tx σ ε α} (f : α → Tx σ ε β) {e : ε} {s : σ} (h : x s = .error e) :
    (x >>= f) s = .error e := by
  change (match x s with
    | .ok (a, s') => f a s'
    | .error e => .error e) = _
  rw [h]

/-- Two sequences that begin with the same part agree when they agree wherever it finishes. -/
theorem bind_congr_ok {x : Tx σ ε α} {f g : α → Tx σ ε β} {s : σ}
    (h : ∀ a s', x s = .ok (a, s') → f a s' = g a s') : (x >>= f) s = (x >>= g) s := by
  cases hx : x s with
  | error e => rw [bind_of_error f hx, bind_of_error g hx]
  | ok r =>
    obtain ⟨a, s'⟩ := r
    rw [bind_of_ok f hx, bind_of_ok g hx, h a s' hx]

/-- A refusal never finishes. -/
@[simp] theorem refuse_ok {e : ε} {b : α} {s s' : σ} :
    (refuse e : Tx σ ε α) s = .ok (b, s') ↔ False := by
  simp [refuse]

/-- A requirement finishes exactly when it holds, without touching the state. -/
@[simp] theorem require_ok {condition : Prop} [Decidable condition] {e : ε} {u : Unit} {s s' : σ} :
    require condition e s = .ok (u, s') ↔ condition ∧ s = s' := by
  unfold require
  split
  · rename_i hc
    simp [hc]
  · rename_i hc
    simp [hc]

/-- A lifted computation finishes exactly when it succeeds. -/
@[simp] theorem lift_ok {x : Except ε α} {a : α} {s s' : σ} :
    lift x s = .ok (a, s') ↔ x = .ok a ∧ s = s' := by
  unfold lift
  cases x with
  | error e => simp
  | ok b => simp

/-- An optional value is unwrapped exactly when it is present. -/
@[simp] theorem orRefuse_ok {x : Option α} {e : ε} {a : α} {s s' : σ} :
    orRefuse x e s = .ok (a, s') ↔ x = some a ∧ s = s' := by
  unfold orRefuse
  cases x with
  | none => simp
  | some b => simp

/-- Reading finishes with the part of the state that was read. -/
@[simp] theorem read_ok {f : σ → α} {a : α} {s s' : σ} :
    (read f : Tx σ ε α) s = .ok (a, s') ↔ a = f s ∧ s = s' := by
  simp [read, eq_comm (a := a)]

/-- A property of the old state holds of the committed one if every finished run keeps it. -/
theorem commit_induction {x : Tx σ ε α} {s : σ} (P : σ → Prop) (hs : P s)
    (hfinished : ∀ a s', x s = .ok (a, s') → P s') : P (x.commit s) := by
  unfold commit
  split
  · rename_i a s' h
    exact hfinished a s' h
  · exact hs

end Tx

end TaxStamp.Lib
