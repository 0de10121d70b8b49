import Mathlib.Data.List.Basic
import Mathlib.Logic.Function.Basic

/-!
# Printers that can be read back

A printer is readable when every text that starts with a printed value determines the
value and what follows it. Where the end of a value only shows in what follows, as for a
number, the remainder must not go on with characters of the same class.
-/

namespace TaxStamp.Lib

namespace AlongLists

/-- A condition on the elements of a list is decided along the list. Characters could also be enumerated as a
whole, which takes too long. -/
scoped instance (priority := 2000) decidableForallMem {α : Type} (p : α → Prop) [DecidablePred p] (l : List α) :
    Decidable (∀ a ∈ l, p a) := List.decidableBAll p l

end AlongLists

variable {α κ : Type}

/-- The text does not go on with a character of the class. -/
def Ends (p : κ → Prop) (text : List κ) : Prop := ∀ c ∈ text.head?, ¬p c

/-- Two runs of a class of characters that end in front of their remainders are the same run. -/
theorem append_eq_of_class {p : κ → Prop} {a b r s : List κ} (ha : ∀ c ∈ a, p c) (hb : ∀ c ∈ b, p c)
    (hr : Ends p r) (hs : Ends p s) (h : a ++ r = b ++ s) : a = b ∧ r = s := by
  induction a generalizing b with
  | nil =>
    cases b with
    | nil => exact ⟨rfl, h⟩
    | cons y b =>
      rw [List.nil_append, List.cons_append] at h
      exact absurd (hb y List.mem_cons_self) (hr y (by rw [h]; rfl))
  | cons x a ih =>
    cases b with
    | nil =>
      rw [List.nil_append, List.cons_append] at h
      exact absurd (ha x List.mem_cons_self) (hs x (by rw [← h]; rfl))
    | cons y b =>
      rw [List.cons_append, List.cons_append, List.cons.injEq] at h
      obtain ⟨rfl, htail⟩ := h
      obtain ⟨rfl, rfl⟩ := ih (fun c hc => ha c (List.mem_cons_of_mem x hc))
        (fun c hc => hb c (List.mem_cons_of_mem x hc)) htail
      exact ⟨rfl, rfl⟩

/-- Every text that starts with a printed value determines the value and the remainder. -/
def Readable (print : α → List κ) : Prop := ∀ a b r s, print a ++ r = print b ++ s → a = b ∧ r = s

/-- The character begins some printed value. -/
def Begins (print : α → List κ) (c : κ) : Prop := ∃ a rest, print a = c :: rest

/-- A remainder in front of which values end is not a value with a remainder. -/
theorem Ends.ne_append {print : α → List κ} {r : List κ} (hr : Ends (Begins print) r) (hprint : ∀ a, print a ≠ [])
    (a : α) (rest : List κ) : r ≠ print a ++ rest := by
  rintro rfl
  cases hfirst : print a with
  | nil => exact hprint a hfirst
  | cons c tail => exact hr c (by rw [hfirst]; rfl) ⟨a, tail, hfirst⟩

/-- A sequence of readable values is readable up to a character that begins none of them. -/
theorem Readable.flatMap {print : α → List κ} (h : Readable print) (hprint : ∀ a, print a ≠ []) {xs ys : List α}
    {r s : List κ} (hr : Ends (Begins print) r) (hs : Ends (Begins print) s)
    (heq : xs.flatMap print ++ r = ys.flatMap print ++ s) : xs = ys ∧ r = s := by
  induction xs generalizing ys with
  | nil =>
    cases ys with
    | nil => exact ⟨rfl, heq⟩
    | cons y ys =>
      rw [List.flatMap_cons, List.append_assoc] at heq
      exact absurd heq (hr.ne_append hprint y _)
  | cons x xs ih =>
    cases ys with
    | nil =>
      rw [List.flatMap_cons, List.append_assoc] at heq
      exact absurd heq.symm (hs.ne_append hprint x _)
    | cons y ys =>
      rw [List.flatMap_cons, List.flatMap_cons, List.append_assoc, List.append_assoc] at heq
      obtain ⟨rfl, htail⟩ := h x y _ _ heq
      obtain ⟨rfl, rfl⟩ := ih htail
      exact ⟨rfl, rfl⟩

/-- Different natural numbers print differently. -/
theorem repr_injective : Function.Injective Nat.repr := by
  intro a b h
  have hdigits : Nat.toDigits 10 a = Nat.toDigits 10 b := by rw [← Nat.toList_repr, h, Nat.toList_repr]
  rw [← Nat.ofDigitChars_ten_toDigits (n := a), hdigits, Nat.ofDigitChars_ten_toDigits]

end TaxStamp.Lib
