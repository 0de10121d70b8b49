import Mathlib.Data.List.Basic
import Mathlib.Data.List.Pairwise
import Mathlib.Data.List.Sort
import TaxStamp.Lib.Tx

/-!
# Tables with declared constraints

A table is a list of rows together with the proof that its declared constraints hold:
every row fits its column types and passes its CHECK, and no two rows clash on a unique
key. Writes rebuild the table and are rejected when the result would break a constraint,
so no transaction can leave an invalid table behind.

Rows are kept in insertion order. Nothing below depends on that order except the
statements that name it, and a query states its own order explicitly.
-/

namespace TaxStamp.Lib

variable {α σ ε : Type}

/-- The constraints of a table. Two rows that `clash` share the value of a unique key. -/
structure Schema (α : Type) where
  fits : α → Bool
  check : α → Bool
  clash : α → α → Bool
  clash_comm : ∀ a b, clash a b = clash b a

/-- Every row fits and passes its CHECK, and distinct positions never clash. -/
structure Schema.Valid (S : Schema α) (rows : List α) : Prop where
  fits : ∀ row ∈ rows, S.fits row = true
  check : ∀ row ∈ rows, S.check row = true
  distinct : rows.Pairwise fun a b => S.clash a b = false

instance (S : Schema α) (rows : List α) : Decidable (S.Valid rows) :=
  decidable_of_iff
    ((∀ row ∈ rows, S.fits row = true) ∧ (∀ row ∈ rows, S.check row = true) ∧
      rows.Pairwise fun a b => S.clash a b = false)
    ⟨fun h => ⟨h.1, h.2.1, h.2.2⟩, fun h => ⟨h.fits, h.check, h.distinct⟩⟩

/-- A list of rows that satisfies the constraints of its schema. -/
structure Table (S : Schema α) where
  rows : List α
  valid : S.Valid rows

/-- Why a write is rejected: a value outside its column type, or a violated constraint. -/
inductive Rejection
  | data
  | integrity
  deriving DecidableEq, Repr

namespace Table

variable {S : Schema α}

/-- The empty table. -/
def empty (S : Schema α) : Table S := ⟨[], ⟨by simp, by simp, List.Pairwise.nil⟩⟩

/-- Install a list of rows if it satisfies the constraints. -/
def ofRows (S : Schema α) (rows : List α) : Except Rejection (Table S) :=
  if h : S.Valid rows then .ok ⟨rows, h⟩
  else if ∀ row ∈ rows, S.fits row = true then .error .integrity
  else .error .data

/-- Append one row. -/
def insert (t : Table S) (row : α) : Except Rejection (Table S) := ofRows S (t.rows ++ [row])

/-- Append several rows at once. -/
def insertAll (t : Table S) (new : List α) : Except Rejection (Table S) := ofRows S (t.rows ++ new)

/-- Rewrite the rows that satisfy the condition. -/
def update (t : Table S) (p : α → Bool) (f : α → α) : Except Rejection (Table S) :=
  ofRows S (t.rows.map fun row => if p row then f row else row)

/-- A table is determined by its rows. -/
theorem ext_rows {t u : Table S} (h : t.rows = u.rows) : t = u := by
  cases t
  cases u
  cases h
  rfl

/-- Installing rows succeeds exactly with the table that has these rows. -/
theorem ofRows_ok {rows : List α} {t : Table S} : ofRows S rows = .ok t ↔ t.rows = rows := by
  unfold ofRows
  constructor
  · intro h
    split at h
    · injection h with h
      rw [← h]
    · split at h <;> contradiction
  · rintro rfl
    rw [dif_pos t.valid]

/-- A successful insertion appends exactly the row. -/
theorem insert_ok {t u : Table S} {row : α} : t.insert row = .ok u ↔ u.rows = t.rows ++ [row] :=
  ofRows_ok

/-- A row that passes its CHECK violates a constraint only by clashing with another row. -/
theorem clash_of_insert_integrity {t : Table S} {row : α} (h : t.insert row = .error .integrity)
    (hcheck : S.check row = true) : ∃ r ∈ t.rows, S.clash r row = true := by
  unfold insert ofRows at h
  split at h
  · cases h
  · rename_i hinvalid
    split at h
    · rename_i hfits
      by_contra hnone
      push Not at hnone
      refine hinvalid ⟨hfits, ?_, ?_⟩
      · intro r hr
        rcases List.mem_append.mp hr with hold | hnew
        · exact t.valid.check r hold
        · rw [List.mem_singleton.mp hnew]
          exact hcheck
      · rw [List.pairwise_append]
        refine ⟨t.valid.distinct, List.pairwise_singleton _ _, ?_⟩
        intro r hr r' hr'
        rw [List.mem_singleton.mp hr']
        exact Bool.eq_false_iff.mpr (hnone r hr)
    · cases h

/-- A successful bulk insertion appends exactly the rows. -/
theorem insertAll_ok {t u : Table S} {new : List α} :
    t.insertAll new = .ok u ↔ u.rows = t.rows ++ new :=
  ofRows_ok

/-- A successful update rewrites exactly the selected rows, in place. -/
theorem update_ok {t u : Table S} {p : α → Bool} {f : α → α} :
    t.update p f = .ok u ↔ u.rows = t.rows.map fun row => if p row then f row else row :=
  ofRows_ok

/-- Rows that clash are one and the same row. -/
theorem eq_of_clash (t : Table S) {a b : α} (ha : a ∈ t.rows) (hb : b ∈ t.rows)
    (h : S.clash a b = true) : a = b := by
  by_contra hne
  have hsymm : Std.Symm fun a b => S.clash a b = false := ⟨fun x y hxy => S.clash_comm x y ▸ hxy⟩
  have := t.valid.distinct.forall ha hb hne
  simp [h] at this

/-- A row that clashes with every row of a selection is the only one selected. -/
theorem filter_eq_singleton (t : Table S) {p : α → Bool} {row : α} (hrow : row ∈ t.rows) (hp : p row = true)
    (hclash : ∀ r ∈ t.rows, p r = true → S.clash r row = true) : t.rows.filter p = [row] := by
  have hdistinct := t.valid.distinct.filter p
  have hall : ∀ r ∈ t.rows.filter p, r = row := by
    intro r hr
    obtain ⟨hmem, hpr⟩ := List.mem_filter.mp hr
    exact t.eq_of_clash hmem hrow (hclash r hmem hpr)
  have hfound : row ∈ t.rows.filter p := List.mem_filter.mpr ⟨hrow, hp⟩
  generalize t.rows.filter p = found at hdistinct hall hfound
  match found with
  | [] => cases hfound
  | [r] => rw [hall r (List.mem_singleton.mpr rfl)]
  | r :: r' :: rest =>
    have hne := List.rel_of_pairwise_cons hdistinct (List.mem_cons_self ..)
    rw [hall r (by simp), hall r' (by simp), hclash row hrow hp] at hne
    contradiction

/-- An appended row clashes with none of the rows before it. -/
theorem not_clash_of_append (t u : Table S) {row : α} (h : u.rows = t.rows ++ [row]) :
    ∀ r ∈ t.rows, S.clash r row = false := by
  intro r hr
  have hdistinct := u.valid.distinct
  rw [h, List.pairwise_append] at hdistinct
  exact hdistinct.2.2 r hr row (List.mem_singleton.mpr rfl)

end Table

/-- A component of a state that can be read and replaced. -/
structure Field (σ τ : Type) where
  get : σ → τ
  set : τ → σ → σ

section Queries

variable {S : Schema α} (F : Field σ (Table S))

/-- All rows that satisfy the condition. -/
def selectAll (p : α → Bool) : Tx σ ε (List α) := Tx.read fun s => (F.get s).rows.filter p

/-- The first rows that satisfy the condition in the given order. -/
def selectOrdered (p : α → Bool) (le : α → α → Bool) (limit : ℕ) : Tx σ ε (List α) :=
  Tx.read fun s => (((F.get s).rows.filter p).insertionSort fun a b => le a b = true).take limit

/-- The first row that satisfies the condition in the given order, if there is one. -/
def selectFirst (p : α → Bool) (le : α → α → Bool) : Tx σ ε (Option α) := do
  let found ← selectOrdered F p le 1
  return found.head?

/-- The only row that satisfies the condition, if there is one; refuse when there are several. -/
def selectOne (several : ε) (p : α → Bool) : Tx σ ε (Option α) := fun s =>
  match (F.get s).rows.filter p with
  | [] => .ok (none, s)
  | [row] => .ok (some row, s)
  | _ :: _ :: _ => .error several

/-- Turn a table write into a transaction. -/
def write (refusal : Rejection → ε) (f : Table S → Except Rejection (Table S)) : Tx σ ε Unit := fun s =>
  match f (F.get s) with
  | .ok t => .ok ((), F.set t s)
  | .error e => .error (refusal e)

/-- Insert one row. -/
def insertRow (refusal : Rejection → ε) (row : α) : Tx σ ε Unit := write F refusal fun t => t.insert row

/-- Insert several rows at once. -/
def insertRows (refusal : Rejection → ε) (new : List α) : Tx σ ε Unit :=
  write F refusal fun t => t.insertAll new

/-- Rewrite the selected rows. -/
def updateRows (refusal : Rejection → ε) (p : α → Bool) (f : α → α) : Tx σ ε Unit :=
  write F refusal fun t => t.update p f

variable {F}

/-- Selecting returns the filtered rows of the current state. -/
@[simp] theorem selectAll_ok {p : α → Bool} {found : List α} {s s' : σ} :
    (selectAll F p : Tx σ ε _) s = .ok (found, s') ↔ found = (F.get s).rows.filter p ∧ s = s' := by
  simp [selectAll]

/-- Selecting in order does not touch the state. -/
@[simp] theorem selectOrdered_ok {p : α → Bool} {le : α → α → Bool} {limit : ℕ} {found : List α} {s s' : σ} :
    (selectOrdered F p le limit : Tx σ ε _) s = .ok (found, s') ↔
      found = (((F.get s).rows.filter p).insertionSort fun a b => le a b = true).take limit ∧ s = s' := by
  simp [selectOrdered]

/-- Selecting the first row does not touch the state. -/
@[simp] theorem selectFirst_ok {p : α → Bool} {le : α → α → Bool} {found : Option α} {s s' : σ} :
    (selectFirst F p le : Tx σ ε _) s = .ok (found, s') ↔
      found = (((F.get s).rows.filter p).insertionSort fun a b => le a b = true).head? ∧ s = s' := by
  simp only [selectFirst, Tx.bind_ok, selectOrdered_ok, Tx.pure_ok]
  constructor
  · rintro ⟨rows, s₁, ⟨rfl, rfl⟩, rfl, rfl⟩
    exact ⟨by rw [List.head?_take, if_neg Nat.one_ne_zero], rfl⟩
  · rintro ⟨rfl, rfl⟩
    exact ⟨_, _, ⟨rfl, rfl⟩, by rw [List.head?_take, if_neg Nat.one_ne_zero], rfl⟩

/-- The only row found satisfies the condition and is in the table. -/
theorem mem_of_filter_eq_singleton {rows : List α} {p : α → Bool} {row : α} (h : rows.filter p = [row]) :
    row ∈ rows ∧ p row = true := by
  rw [← List.mem_filter, h]
  exact List.mem_singleton.mpr rfl

/-- A row selected in order satisfies the condition and is in the table. -/
theorem mem_of_mem_selectOrdered {t : Table S} {p : α → Bool} {le : α → α → Bool} {limit : ℕ} {row : α}
    (h : row ∈ ((t.rows.filter p).insertionSort fun a b => le a b = true).take limit) :
    row ∈ t.rows ∧ p row = true := by
  have hsorted := List.mem_of_mem_take h
  rw [List.mem_insertionSort] at hsorted
  exact List.mem_filter.mp hsorted

/-- A single row is returned exactly when it is the only one that satisfies the condition. -/
@[simp] theorem selectOne_some {several : ε} {p : α → Bool} {row : α} {s s' : σ} :
    selectOne F several p s = .ok (some row, s') ↔ (F.get s).rows.filter p = [row] ∧ s = s' := by
  unfold selectOne
  split
  · rename_i h
    simp [h]
  · rename_i found h
    simp [h, eq_comm]
  · rename_i h
    simp [h]

/-- No row is returned exactly when none satisfies the condition. -/
@[simp] theorem selectOne_none {several : ε} {p : α → Bool} {s s' : σ} :
    selectOne F several p s = .ok (none, s') ↔ (F.get s).rows.filter p = [] ∧ s = s' := by
  unfold selectOne
  split
  · rename_i h
    simp [h]
  · rename_i found h
    simp [h]
  · rename_i h
    simp [h]

/-- A write finishes exactly when the table accepts it, changing only that table. -/
theorem write_ok {refusal : Rejection → ε} {f : Table S → Except Rejection (Table S)} {u : Unit}
    {s s' : σ} :
    write F refusal f s = .ok (u, s') ↔ ∃ t, f (F.get s) = .ok t ∧ s' = F.set t s := by
  unfold write
  split
  · rename_i t h
    simp [h, eq_comm]
  · rename_i e h
    simp [h]

/-- A finished insertion replaces the table by one with the row appended. -/
@[simp] theorem insertRow_ok {refusal : Rejection → ε} {row : α} {u : Unit} {s s' : σ} :
    insertRow F refusal row s = .ok (u, s') ↔
      ∃ t : Table S, t.rows = (F.get s).rows ++ [row] ∧ s' = F.set t s := by
  simp only [insertRow, write_ok, Table.insert_ok]

/-- A finished bulk insertion replaces the table by one with the rows appended. -/
@[simp] theorem insertRows_ok {refusal : Rejection → ε} {new : List α} {u : Unit} {s s' : σ} :
    insertRows F refusal new s = .ok (u, s') ↔
      ∃ t : Table S, t.rows = (F.get s).rows ++ new ∧ s' = F.set t s := by
  simp only [insertRows, write_ok, Table.insertAll_ok]

/-- A finished update replaces the table by one with the selected rows rewritten. -/
@[simp] theorem updateRows_ok {refusal : Rejection → ε} {p : α → Bool} {f : α → α} {u : Unit}
    {s s' : σ} :
    updateRows F refusal p f s = .ok (u, s') ↔
      ∃ t : Table S, (t.rows = (F.get s).rows.map fun row => if p row then f row else row) ∧
        s' = F.set t s := by
  simp only [updateRows, write_ok, Table.update_ok]

end Queries

section Selections

variable {p q : α → Bool} {rows : List α}

/-- Rewriting other rows in place keeps a selection. -/
theorem filter_map_of_frame {f : α → α} (hselected : ∀ a ∈ rows, p (f a) = p a)
    (hframe : ∀ a ∈ rows, p a = true → f a = a) : (rows.map f).filter p = rows.filter p := by
  have hpre : rows.filter (p ∘ f) = rows.filter p := List.filter_congr hselected
  rw [List.filter_map, hpre]
  calc (rows.filter p).map f
      = (rows.filter p).map fun a => a :=
        List.map_congr_left fun a ha => hframe a (List.mem_filter.mp ha).1 (List.mem_filter.mp ha).2
    _ = rows.filter p := List.map_id' _

/-- Appending other rows keeps a selection. -/
theorem filter_append_of_frame {new : List α} (hframe : ∀ a ∈ new, p a = false) :
    (rows ++ new).filter p = rows.filter p := by
  have hnew : new.filter p = [] := List.filter_eq_nil_iff.mpr fun a ha => Bool.eq_false_iff.mp (hframe a ha)
  rw [List.filter_append, hnew, List.append_nil]

/-- A selection that lies within another one can be made from it. -/
theorem filter_of_selected (h : ∀ a ∈ rows, p a = true → q a = true) : (rows.filter q).filter p = rows.filter p := by
  rw [List.filter_filter]
  refine List.filter_congr fun a ha => ?_
  cases hp : p a with
  | true =>
    rw [h a ha hp]
    rfl
  | false => rfl

end Selections

end TaxStamp.Lib
