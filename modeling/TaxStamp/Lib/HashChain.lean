import Mathlib.Data.List.Forall2
import Mathlib.Data.List.Induction
import Mathlib.Tactic.Common

/-!
# Hash chains

Every row of a chain commits to its predecessor's hash. When the commitment determines the
predecessor's hash and what the row says, and never yields the hash the chain starts from,
the last hash determines the whole chain.
-/

namespace TaxStamp.Lib

variable {ρ η : Type}

/-- Every row is linked to the hash before it. -/
def Linked (link : η → ρ → Prop) (hash : ρ → η) (previous : η) : List ρ → Prop
  | [] => True
  | row :: rest => link previous row ∧ Linked link hash (hash row) rest

/-- The hash a chain has come to. -/
def tip (hash : ρ → η) (genesis : η) (rows : List ρ) : η := (rows.getLast?.map hash).getD genesis

variable {link : η → ρ → Prop} {hash : ρ → η} {genesis : η}

/-- Rows are linked through an append when the second part continues the first. -/
theorem linked_append (first second : List ρ) :
    Linked link hash genesis (first ++ second) ↔
      Linked link hash genesis first ∧ Linked link hash (tip hash genesis first) second := by
  induction first generalizing genesis with
  | nil => simp [Linked, tip]
  | cons row rest ih =>
    have htip : tip hash (hash row) rest = tip hash genesis (row :: rest) := by
      cases h : rest.getLast? <;> simp [tip, List.getLast?_cons, h]
    rw [List.cons_append, Linked, Linked, ih, htip, and_assoc]

/-- The last row is linked to the hash the others have come to. -/
theorem linked_concat (rows : List ρ) (row : ρ) :
    Linked link hash genesis (rows ++ [row]) ↔ Linked link hash genesis rows ∧ link (tip hash genesis rows) row := by
  rw [linked_append, Linked, Linked, and_true]

/-- A stronger link that holds behind every hash of a kind holds along a chain that starts from one. -/
theorem Linked.imp {link' : η → ρ → Prop} {P : η → Prop} {rows : List ρ}
    (h : ∀ p, ∀ row ∈ rows, P p → link p row → link' p row ∧ P (hash row)) (hgenesis : P genesis)
    (hlinked : Linked link hash genesis rows) : Linked link' hash genesis rows := by
  induction rows generalizing genesis with
  | nil => trivial
  | cons row rest ih =>
    obtain ⟨hlink, hnext⟩ := h genesis row List.mem_cons_self hgenesis hlinked.1
    exact ⟨hlink, ih (fun p row' hrow => h p row' (List.mem_cons_of_mem row hrow)) hnext hlinked.2⟩

/-- Two chains with the same last hash agree row by row. -/
theorem Linked.agree {same : ρ → ρ → Prop}
    (hlink : ∀ p q a b, link p a → link q b → hash a = hash b → p = q ∧ same a b)
    (hgenesis : ∀ p a, link p a → hash a ≠ genesis) {first second : List ρ}
    (hfirst : Linked link hash genesis first) (hsecond : Linked link hash genesis second)
    (htip : tip hash genesis first = tip hash genesis second) : List.Forall₂ same first second := by
  induction first using List.reverseRecOn generalizing second with
  | nil =>
    induction second using List.reverseRecOn with
    | nil => exact .nil
    | append_singleton second b _ =>
      rw [linked_concat] at hsecond
      refine absurd ?_ (hgenesis _ b hsecond.2)
      simpa [tip] using htip.symm
  | append_singleton first a ih =>
    rw [linked_concat] at hfirst
    induction second using List.reverseRecOn with
    | nil =>
      refine absurd ?_ (hgenesis _ a hfirst.2)
      simpa [tip] using htip
    | append_singleton second b _ =>
      rw [linked_concat] at hsecond
      have hhash : hash a = hash b := by simpa [tip] using htip
      obtain ⟨hprevious, hsame⟩ := hlink _ _ a b hfirst.2 hsecond.2 hhash
      exact List.rel_append (ih hfirst.1 hsecond.1 hprevious) (.cons hsame .nil)

end TaxStamp.Lib
