import Mathlib.Algebra.Group.Basic

/-!
# Checksums with alternating weights

The checksum of a text adds up the weights of its symbols, two weight functions taking
turns. Which error changes the sum depends on the two functions alone: a replaced symbol
is noticed when both are injective, and two exchanged neighbours when no two symbols can
trade places under the pair of them.
-/

namespace TaxStamp.Lib

variable {α M : Type*} [AddCancelCommMonoid M]

/-- The sum of the weights of a text, the first function weighing the first symbol. -/
def altSum (f g : α → M) : List α → M
  | [] => 0
  | x :: xs => f x + altSum g f xs

/-- A replaced symbol changes the sum unless its weight stays the same. -/
theorem altSum_replace {f g : α → M} {x y : α} {P : Prop} (hf : f x = f y → P) (hg : g x = g y → P) {before after : List α}
    (h : altSum f g (before ++ x :: after) = altSum f g (before ++ y :: after)) : P := by
  induction before generalizing f g with
  | nil => exact hf (add_right_cancel h)
  | cons z before ih => exact ih hg hf (add_left_cancel h)

/-- Exchanged neighbours change the sum unless their weights stay the same together. -/
theorem altSum_exchange {f g : α → M} {x y : α} {P : Prop} (hfg : f x + g y = f y + g x → P)
    (hgf : g x + f y = g y + f x → P) {before after : List α}
    (h : altSum f g (before ++ x :: y :: after) = altSum f g (before ++ y :: x :: after)) : P := by
  induction before generalizing f g with
  | nil =>
    simp only [List.nil_append, altSum, ← add_assoc] at h
    exact hfg (add_right_cancel h)
  | cons z before ih => exact ih hgf hfg (add_left_cancel h)

end TaxStamp.Lib
