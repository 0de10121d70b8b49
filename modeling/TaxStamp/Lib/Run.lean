import Mathlib.Data.List.Induction
import Mathlib.Tactic.Common

/-!
# Runs of a step function

An interleaving is a list of events; a run folds the step function over it. Whatever is
nondeterministic about a step (who acts, what it reads, whether it fails) is part of its
event, so a statement about every list of events is a statement about every interleaving.

`Along` says that a condition on the state before a step and on the step's event holds at
every step of a run. It is how a restricted class of runs is described.
-/

namespace TaxStamp.Lib

variable {σ ε : Type}

/-- The state after a list of events. -/
def run (step : σ → ε → σ) (s : σ) (events : List ε) : σ := events.foldl step s

/-- Every step of the run meets the condition, judged on the state before it. -/
def Along (step : σ → ε → σ) (guard : σ → ε → Prop) (s : σ) : List ε → Prop
  | [] => True
  | e :: rest => guard s e ∧ Along step guard (step s e) rest

instance Along.decidable (step : σ → ε → σ) (guard : σ → ε → Prop) [∀ s e, Decidable (guard s e)] :
    (s : σ) → (events : List ε) → Decidable (Along step guard s events)
  | _, [] => inferInstanceAs (Decidable True)
  | s, e :: rest =>
    have := Along.decidable step guard (step s e) rest
    inferInstanceAs (Decidable (guard s e ∧ Along step guard (step s e) rest))

variable {step : σ → ε → σ} {guard : σ → ε → Prop}

/-- Running a concatenation is running its parts one after the other. -/
theorem run_append (s : σ) (first second : List ε) :
    run step s (first ++ second) = run step (run step s first) second := by
  simp only [run, List.foldl_append]

/-- The last event of a run is one step from the state before it. -/
theorem run_concat (s : σ) (events : List ε) (e : ε) :
    run step s (events ++ [e]) = step (run step s events) e := by
  simp only [run, List.foldl_append, List.foldl_cons, List.foldl_nil]

/-- A condition holds along a concatenation exactly when it holds along both parts. -/
theorem along_append (s : σ) (first second : List ε) :
    Along step guard s (first ++ second) ↔
      Along step guard s first ∧ Along step guard (run step s first) second := by
  induction first generalizing s with
  | nil => simp [Along, run]
  | cons e rest ih =>
    simp only [List.cons_append, Along, ih, and_assoc]
    rfl

/-- A condition holds along a run exactly when it holds at each of its steps. -/
theorem along_iff (s : σ) (events : List ε) :
    Along step guard s events ↔
      ∀ before e after, events = before ++ e :: after → guard (run step s before) e := by
  constructor
  · rintro halong before e after rfl
    rw [along_append] at halong
    exact halong.2.1
  · induction events generalizing s with
    | nil =>
      intro _
      trivial
    | cons e rest ih =>
      intro h
      refine ⟨h [] e rest rfl, ih (step s e) fun before e' after hrest => ?_⟩
      exact h (e :: before) e' after (by rw [hrest, List.cons_append])

/-- The total of a quantity over the steps of a run, each judged on the state before it. -/
def total (step : σ → ε → σ) (amount : σ → ε → ℕ) (s : σ) : List ε → ℕ
  | [] => 0
  | e :: rest => amount s e + total step amount (step s e) rest

/-- The last event of a run adds its own amount. -/
theorem total_concat (amount : σ → ε → ℕ) (s : σ) (events : List ε) (e : ε) :
    total step amount s (events ++ [e]) = total step amount s events + amount (run step s events) e := by
  induction events generalizing s with
  | nil =>
    simp only [List.nil_append, total, run, List.foldl_nil]
    omega
  | cons first rest ih =>
    simp only [List.cons_append, total, ih, run, List.foldl_cons]
    omega

/-- What every step preserves holds after every run. -/
theorem run_invariant (Inv : σ → Prop) (hstep : ∀ s e, Inv s → Inv (step s e)) (s : σ) (hs : Inv s)
    (events : List ε) : Inv (run step s events) := by
  induction events generalizing s with
  | nil => exact hs
  | cons e rest ih => exact ih (step s e) (hstep s e hs)

/-- What every step of a restricted run preserves holds after it. -/
theorem run_invariant_along (Inv : σ → Prop) (hstep : ∀ s e, Inv s → guard s e → Inv (step s e))
    (s : σ) (hs : Inv s) (events : List ε) (halong : Along step guard s events) :
    Inv (run step s events) := by
  induction events generalizing s with
  | nil => exact hs
  | cons e rest ih => exact ih (step s e) (hstep s e hs halong.1) halong.2

/-- When every step projects to a run of another system, every run does. -/
theorem run_simulates {τ δ : Type} {step' : τ → δ → τ} (project : σ → τ)
    (hstep : ∀ s e, ∃ events', project (step s e) = run step' (project s) events') (s : σ) (events : List ε) :
    ∃ events', project (run step s events) = run step' (project s) events' := by
  induction events generalizing s with
  | nil => exact ⟨[], rfl⟩
  | cons e rest ih =>
    obtain ⟨first, hfirst⟩ := hstep s e
    obtain ⟨second, hsecond⟩ := ih (step s e)
    exact ⟨first ++ second, by rw [run_append, ← hfirst, ← hsecond]; rfl⟩

/-- A statement about the events so far and the state they lead to holds after every run if every
event keeps it. -/
theorem run_history (Inv : List ε → σ → Prop) (s : σ) (hs : Inv [] s)
    (hstep : ∀ past e, Inv past (run step s past) → Inv (past ++ [e]) (step (run step s past) e))
    (events : List ε) : Inv events (run step s events) := by
  induction events using List.reverseRecOn with
  | nil => exact hs
  | append_singleton past e ih =>
    rw [run_concat]
    exact hstep past e ih

end TaxStamp.Lib
