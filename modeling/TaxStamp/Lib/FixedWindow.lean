import Mathlib.Algebra.Order.Group.Defs
import Mathlib.Algebra.Order.Monoid.Defs
import Mathlib.Data.List.Basic
import Mathlib.Tactic.Common

/-!
# Fixed-window counters

A counter opens with the first call that finds none open and lives for one window. It counts
the calls of its life, and a call is admitted while the count is within the limit. Counters
open at the times of calls and not at fixed times, so an interval of the length of a window
can meet two of them, but never three: the second opens inside it and outlives it.
-/

namespace TaxStamp.Lib.FixedWindow

variable {τ : Type} [AddCommGroup τ] [LinearOrder τ]

/-- A counter: its calls so far and the time at which it was opened. -/
structure Counter (τ : Type) where
  count : ℕ
  opened : τ

/-- The counter lives up to one window after it was opened. -/
def lives (window : τ) (c : Option (Counter τ)) (t : τ) : Bool :=
  match c with
  | some c => t < c.opened + window
  | none => false

/-- The counter after a call. -/
def tick (window : τ) (c : Option (Counter τ)) (t : τ) : Counter τ :=
  match c with
  | some c => if t < c.opened + window then ⟨c.count + 1, c.opened⟩ else ⟨1, t⟩
  | none => ⟨1, t⟩

/-- The counts that calls are given. -/
def counts (window : τ) : Option (Counter τ) → List τ → List ℕ
  | _, [] => []
  | c, t :: rest => (tick window c t).count :: counts window (some (tick window c t)) rest

/-- How many calls are admitted in the interval of a window's length that begins at a time. -/
def admittedIn (window : τ) (limit : ℕ) (start : τ) (c : Option (Counter τ)) (times : List τ) : ℕ :=
  (times.zip (counts window c times)).countP fun call => call.2 ≤ limit ∧ start ≤ call.1 ∧ call.1 ≤ start + window

/-- The counter after calls. -/
def after (window : τ) (c : Option (Counter τ)) (times : List τ) : Option (Counter τ) :=
  times.foldl (fun c t => some (tick window c t)) c

variable {window : τ} {limit : ℕ}

/-- A call that finds no counter open opens one. -/
theorem tick_of_not_lives {c : Option (Counter τ)} {t : τ} (h : lives window c t = false) : tick window c t = ⟨1, t⟩ := by
  cases c with
  | none => rfl
  | some c =>
    rw [lives, decide_eq_false_iff_not] at h
    exact if_neg h

/-- A call in the life of a counter is counted by it. -/
theorem tick_of_lt {c : Counter τ} {t : τ} (h : t < c.opened + window) :
    tick window (some c) t = ⟨c.count + 1, c.opened⟩ := if_pos h

/-- Every call is given a count. -/
theorem length_counts (c : Option (Counter τ)) (times : List τ) : (counts window c times).length = times.length := by
  induction times generalizing c with
  | nil => rfl
  | cons t rest ih => rw [counts, List.length_cons, List.length_cons, ih]

/-- Counts of consecutive calls are those of the first ones and then of the rest. -/
theorem counts_append (c : Option (Counter τ)) (first second : List τ) :
    counts window c (first ++ second) = counts window c first ++ counts window (after window c first) second := by
  induction first generalizing c with
  | nil => rfl
  | cons t rest ih =>
    rw [List.cons_append, counts, ih, counts, List.cons_append]
    rfl

/-- The calls in the life of a counter are counted one after the other. -/
theorem counts_of_lt {c : Counter τ} {times : List τ} (h : ∀ t ∈ times, t < c.opened + window) :
    counts window (some c) times = List.range' (c.count + 1) times.length := by
  induction times generalizing c with
  | nil => rfl
  | cons t rest ih =>
    have hfirst : t < c.opened + window := h t List.mem_cons_self
    have hrest : ∀ t' ∈ rest, t' < (⟨c.count + 1, c.opened⟩ : Counter τ).opened + window :=
      fun t' ht' => h t' (List.mem_cons_of_mem _ ht')
    rw [counts, tick_of_lt hfirst, ih hrest, List.length_cons, List.range'_succ]

/-- The calls in the life of a counter that opens are counted from one on. -/
theorem counts_lifetime {c : Option (Counter τ)} {t : τ} {rest : List τ}
    (hopens : lives window c t = false) (h : ∀ t' ∈ rest, t' < t + window) :
    counts window c (t :: rest) = List.range' 1 (rest.length + 1) := by
  rw [counts, tick_of_not_lives hopens, counts_of_lt h, List.range'_succ]

/-- Of the counts from one on exactly the first ones are within the limit. -/
theorem map_le_range' (limit n : ℕ) :
    (List.range' 1 n).map (fun count => decide (count ≤ limit)) =
      List.replicate (min n limit) true ++ List.replicate (n - min n limit) false := by
  refine List.ext_getElem (by simp) fun i hi hi' => ?_
  rw [List.getElem_map, List.getElem_range', List.getElem_append]
  rw [List.length_map, List.length_range'] at hi
  split
  · rename_i hfirst
    rw [List.length_replicate] at hfirst
    rw [List.getElem_replicate, decide_eq_true_eq]
    omega
  · rename_i hlater
    rw [List.length_replicate] at hlater
    rw [List.getElem_replicate, decide_eq_false_iff_not]
    omega

/-! ### Calls admitted in an interval -/

/-- What is known of the calls admitted in an interval while a counter is the last one opened. -/
structure Within (window : τ) (limit : ℕ) (start : τ) (admitted : ℕ) (c : Counter τ) : Prop where
  past : c.opened + window ≤ start → admitted = 0
  one : c.opened ≤ start → admitted ≤ min c.count limit
  two : c.opened ≤ start + window → admitted ≤ limit + min c.count limit
  all : admitted ≤ 2 * limit

section Interval

variable [IsOrderedAddMonoid τ] {start : τ} {admitted : ℕ} {c : Counter τ} {t : τ}

omit [IsOrderedAddMonoid τ] in
/-- A call of a counter's life is admitted within its limit. -/
theorem Within.count (h : Within window limit start admitted c) (hafter : c.opened ≤ t)
    (hlives : t < c.opened + window) :
    Within window limit start
      (admitted + if c.count + 1 ≤ limit ∧ start ≤ t ∧ t ≤ start + window then 1 else 0)
      ⟨c.count + 1, c.opened⟩ := by
  have hone := h.one
  have htwo := h.two
  have hall := h.all
  constructor
  · intro hpast
    rw [h.past hpast, if_neg fun hin => absurd (hlives.trans_le hpast) (not_lt.mpr hin.2.1)]
  · intro hopened
    have hbound := hone hopened
    simp only
    split <;> omega
  · intro hopened
    have hbound := htwo hopened
    simp only
    split <;> omega
  · split
    · rename_i hin
      have hbound := htwo (hafter.trans hin.2.2)
      omega
    · omega

/-- A call that opens a counter finds the calls of one counter at most in the interval. -/
theorem Within.open (h : Within window limit start admitted c) (hwindow : 0 < window) (hopens : c.opened + window ≤ t) :
    Within window limit start (admitted + if 1 ≤ limit ∧ start ≤ t ∧ t ≤ start + window then 1 else 0) ⟨1, t⟩ := by
  have hall := h.all
  have hfirst : t ≤ start + window → admitted ≤ limit := by
    intro hin
    have hbound := h.one (le_of_add_le_add_right (hopens.trans hin))
    omega
  constructor
  · intro hpast
    have hbefore : t < start := (lt_add_of_pos_right t hwindow).trans_le hpast
    rw [h.past (hopens.trans hbefore.le), if_neg fun hin => absurd hbefore (not_lt.mpr hin.2.1)]
  · intro hbefore
    rw [h.past (hopens.trans hbefore)]
    simp only
    split <;> omega
  · intro hin
    have hbound := hfirst hin
    simp only
    split <;> omega
  · split
    · rename_i hin
      have hbound := hfirst hin.2.2
      omega
    · omega

/-- Every call keeps what is known. -/
theorem Within.tick (h : Within window limit start admitted c) (hwindow : 0 < window) (hafter : c.opened ≤ t) :
    Within window limit start
      (admitted + if (tick window (some c) t).count ≤ limit ∧ start ≤ t ∧ t ≤ start + window then 1 else 0)
      (FixedWindow.tick window (some c) t) := by
  by_cases hlives : t < c.opened + window
  · rw [tick_of_lt hlives]
    exact h.count hafter hlives
  · have hdead : lives window (some c) t = false := decide_eq_false hlives
    rw [tick_of_not_lives hdead]
    exact h.open hwindow (not_lt.mp hlives)

omit [IsOrderedAddMonoid τ] in
/-- The last counter opened is opened no later than any call to come. -/
theorem opened_tick_le (hafter : c.opened ≤ t) : (tick window (some c) t).opened ≤ t := by
  unfold tick
  dsimp only
  split
  · exact hafter
  · exact le_rfl

/-- The calls admitted in the interval, before and after, are at most twice the limit. -/
theorem Within.admittedIn_le {times : List τ} (h : Within window limit start admitted c) (hwindow : 0 < window)
    (hordered : times.Pairwise (· ≤ ·)) (hafter : ∀ t ∈ times, c.opened ≤ t) :
    admitted + admittedIn window limit start (some c) times ≤ 2 * limit := by
  induction times generalizing admitted c with
  | nil =>
    rw [admittedIn, counts, List.zip_nil_right, List.countP_nil]
    exact h.all
  | cons t rest ih =>
    obtain ⟨hlater, hrest⟩ := List.pairwise_cons.mp hordered
    have hfirst := hafter t List.mem_cons_self
    have hbound := ih (h.tick hwindow hfirst) hrest fun t' ht' => (opened_tick_le hfirst).trans (hlater t' ht')
    rw [admittedIn, counts, List.zip_cons_cons, List.countP_cons]
    simp only [decide_eq_true_eq]
    unfold admittedIn at hbound
    omega

/-- At most twice the limit is admitted in any interval of the length of a window. -/
theorem admittedIn_le {times : List τ} (hwindow : 0 < window) (hordered : times.Pairwise (· ≤ ·)) (limit : ℕ)
    (start : τ) : admittedIn window limit start none times ≤ 2 * limit := by
  cases times with
  | nil => exact Nat.zero_le _
  | cons t rest =>
    obtain ⟨hlater, hrest⟩ := List.pairwise_cons.mp hordered
    -- a counter that closed before the interval and before the first call stands for none
    have hnothing : Within window limit start 0 ⟨0, min start t - window⟩ :=
      ⟨fun _ => rfl, fun _ => Nat.zero_le _, fun _ => Nat.zero_le _, Nat.zero_le _⟩
    have hdead : lives window (some ⟨0, min start t - window⟩) t = false := by
      rw [lives, decide_eq_false_iff_not, sub_add_cancel, not_lt]
      exact min_le_right _ _
    have hclosed : ∀ t' ∈ t :: rest, (⟨0, min start t - window⟩ : Counter τ).opened ≤ t' := by
      have hpast : min start t - window ≤ t := (sub_le_self _ hwindow.le).trans (min_le_right _ _)
      intro t' ht'
      rcases List.mem_cons.mp ht' with rfl | ht'
      · exact hpast
      · exact hpast.trans (hlater t' ht')
    have hbound := hnothing.admittedIn_le hwindow hordered hclosed
    have hsame : counts window none (t :: rest) = counts window (some ⟨0, min start t - window⟩) (t :: rest) := by
      rw [counts, counts, tick_of_not_lives hdead]
      rfl
    rw [admittedIn, ← hsame, Nat.zero_add] at hbound
    exact hbound

end Interval

end TaxStamp.Lib.FixedWindow
