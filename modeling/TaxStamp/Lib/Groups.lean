import Mathlib.Data.List.Dedup
import Mathlib.Data.List.Induction
import Mathlib.Data.List.Perm.Basic

/-!
# Grouping rows by a key

Rows are grouped in one pass: a row is appended to the group of its key, which is opened at
the end when the key is new. The groups are then the rows of each key, in the order in which
the keys appear. A count over the first rows of the groups does not depend on the order of
the rows exactly when the rows of a group are counted alike.
-/

namespace TaxStamp.Lib

variable {α κ : Type} [DecidableEq κ]

/-- Append a row to the group of a key. -/
def appendTo (k : κ) (row : α) : List (κ × List α) → List (κ × List α)
  | [] => [(k, [row])]
  | (k', rows) :: rest => if k' = k then (k', rows ++ [row]) :: rest else (k', rows) :: appendTo k row rest

variable (key : α → κ)

/-- The rows by their keys. -/
def groups (rows : List α) : List (κ × List α) := rows.foldl (fun table row => appendTo (key row) row table) []

/-- The keys in the order in which they appear. -/
def keysOf (rows : List α) : List κ := (rows.map key).reverse.dedup.reverse

/-- The rows of one key. -/
def rowsOf (k : κ) (rows : List α) : List α := rows.filter fun row => key row = k

variable {key} {k : κ} {row : α} {rows rows' : List α}

/-- The keys are those of the rows. -/
theorem mem_keysOf : k ∈ keysOf key rows ↔ ∃ row ∈ rows, key row = k := by
  rw [keysOf, List.mem_reverse, List.mem_dedup, List.mem_reverse, List.mem_map]

/-- Every key appears once. -/
theorem nodup_keysOf : (keysOf key rows).Nodup := List.nodup_reverse.mpr (List.nodup_dedup _)

/-- A row belongs to its key. -/
theorem mem_rowsOf : row ∈ rowsOf key k rows ↔ row ∈ rows ∧ key row = k := by
  rw [rowsOf, List.mem_filter, decide_eq_true_eq]

/-- A new row adds its key at the end when it is new. -/
theorem keysOf_concat : keysOf key (rows ++ [row]) =
    if key row ∈ keysOf key rows then keysOf key rows else keysOf key rows ++ [key row] := by
  have hmem : key row ∈ (rows.map key).reverse ↔ key row ∈ keysOf key rows := by
    simp [keysOf]
  rw [keysOf, List.map_append, List.map_singleton, List.reverse_append, List.reverse_singleton, List.singleton_append]
  split
  · rename_i hold
    rw [List.dedup_cons_of_mem (hmem.mpr hold), keysOf]
  · rename_i hnew
    rw [List.dedup_cons_of_notMem fun h => hnew (hmem.mp h), List.reverse_cons, keysOf]

/-- Appending to a table with one group for each of its keys. -/
theorem appendTo_map (f : κ → List α) {ks : List κ} (hnodup : ks.Nodup) :
    appendTo k row (ks.map fun k' => (k', f k')) =
      (if k ∈ ks then ks else ks ++ [k]).map fun k' =>
        (k', if k' = k then (if k ∈ ks then f k' else []) ++ [row] else f k') := by
  induction ks with
  | nil => simp [appendTo]
  | cons k' ks ih =>
    obtain ⟨hk', hks⟩ := List.nodup_cons.mp hnodup
    rw [List.map_cons, appendTo]
    by_cases hk : k' = k
    · subst hk
      have hrest : ∀ x ∈ ks, x ≠ k' := fun x hx heq => hk' (heq ▸ hx)
      rw [if_pos rfl, if_pos List.mem_cons_self, List.map_cons, if_pos rfl, if_pos List.mem_cons_self]
      refine congrArg (_ :: ·) (List.map_congr_left fun x hx => ?_)
      rw [if_neg (hrest x hx)]
    · have hmem : k ∈ k' :: ks ↔ k ∈ ks := by simp [Ne.symm hk]
      rw [if_neg hk, ih hks]
      simp only [hmem]
      split <;> simp [hk]

/-- The groups are the rows of the keys. -/
theorem groups_eq (rows : List α) : groups key rows = (keysOf key rows).map fun k => (k, rowsOf key k rows) := by
  induction rows using List.reverseRecOn with
  | nil => rfl
  | append_singleton rows row ih =>
    have hfold : groups key (rows ++ [row]) = appendTo (key row) row (groups key rows) := by
      rw [groups, List.foldl_append]
      rfl
    rw [hfold, ih, appendTo_map _ nodup_keysOf, ← keysOf_concat]
    refine List.map_congr_left fun k _ => ?_
    have happend : rowsOf key k (rows ++ [row]) = rowsOf key k rows ++ rowsOf key k [row] := List.filter_append ..
    rw [happend]
    by_cases hk : k = key row
    · subst hk
      rw [if_pos rfl]
      split
      · simp [rowsOf]
      · rename_i hnew
        have hnone : rowsOf key (key row) rows = [] := by
          rw [rowsOf, List.filter_eq_nil_iff]
          intro r hr heq
          exact hnew (mem_keysOf.mpr ⟨r, hr, of_decide_eq_true heq⟩)
        rw [hnone]
        simp [rowsOf]
    · simp [rowsOf, hk, Ne.symm hk]

/-- A group holds the rows of its key and is not empty. -/
theorem mem_groups {group : κ × List α} (h : group ∈ groups key rows) :
    group.1 ∈ keysOf key rows ∧ group.2 = rowsOf key group.1 rows := by
  rw [groups_eq] at h
  obtain ⟨k, hk, rfl⟩ := List.mem_map.mp h
  exact ⟨hk, rfl⟩

/-- The keys of permuted rows are permuted. -/
theorem keysOf_perm (h : rows.Perm rows') : (keysOf key rows).Perm (keysOf key rows') := by
  rw [List.perm_ext_iff_of_nodup nodup_keysOf nodup_keysOf]
  intro k
  rw [mem_keysOf, mem_keysOf]
  exact exists_congr fun row => and_congr_left fun _ => h.mem_iff

/-- The group of a key holds its rows. -/
theorem lookup_groups : ((groups key rows).lookup k).getD [] = rowsOf key k rows := by
  have hlookup : ∀ (f : κ → List α) (ks : List κ), ((ks.map fun k => (k, f k)).lookup k).getD [] =
      if k ∈ ks then f k else [] := by
    intro f ks
    induction ks with
    | nil => rfl
    | cons k' ks ih =>
      rw [List.map_cons, List.lookup_cons]
      by_cases hk : k = k'
      · subst hk
        simp
      · rw [beq_false_of_ne hk]
        simp [hk, ih]
  rw [groups_eq, hlookup]
  split
  · rfl
  · rename_i hnew
    symm
    rw [rowsOf, List.filter_eq_nil_iff]
    intro row hrow heq
    exact hnew (mem_keysOf.mpr ⟨row, hrow, of_decide_eq_true heq⟩)

/-- The keys of the rows differ exactly when no group has two rows. -/
theorem nodup_map_iff : (rows.map key).Nodup ↔ ∀ k ∈ keysOf key rows, (rowsOf key k rows).length ≤ 1 := by
  have hcount : ∀ k, (rowsOf key k rows).length = (rows.map key).count k := by
    intro k
    rw [rowsOf, ← List.countP_eq_length_filter, List.count, List.countP_map]
    exact List.countP_congr fun row _ => by simp
  rw [List.nodup_iff_count_le_one]
  constructor
  · intro h k _
    rw [hcount]
    exact h k
  · intro h k
    rw [← hcount]
    by_cases hk : k ∈ keysOf key rows
    · exact h k hk
    · have hnone : rowsOf key k rows = [] := by
        rw [rowsOf, List.filter_eq_nil_iff]
        intro row hrow heq
        exact hk (mem_keysOf.mpr ⟨row, hrow, of_decide_eq_true heq⟩)
      rw [hnone]
      exact Nat.zero_le 1

variable (key) (p : α → Bool)

/-- The number of groups whose first row satisfies the predicate. -/
def firstCount (rows : List α) : ℕ := (keysOf key rows).countP fun k => (rowsOf key k rows).head?.any p

variable {key p}

/-- The count does not depend on the order of the rows when the rows of a group agree on the predicate. -/
theorem firstCount_perm (huniform : ∀ a ∈ rows, ∀ b ∈ rows, key a = key b → p a = p b) (h : rows.Perm rows') :
    firstCount key p rows = firstCount key p rows' := by
  have hsome : ∀ {xs : List α}, (∀ a ∈ xs, ∀ b ∈ xs, key a = key b → p a = p b) → ∀ k,
      (rowsOf key k xs).head?.any p = true ↔ ∃ row ∈ xs, key row = k ∧ p row = true := by
    intro xs hxs k
    cases hrows : rowsOf key k xs with
    | nil =>
      refine iff_of_false (fun h => by cases h) fun hexists => ?_
      obtain ⟨row, hrow, hkey, -⟩ := hexists
      have hmem : row ∈ rowsOf key k xs := mem_rowsOf.mpr ⟨hrow, hkey⟩
      rw [hrows] at hmem
      cases hmem
    | cons first rest =>
      have hfirst : first ∈ rowsOf key k xs := hrows ▸ List.mem_cons_self
      obtain ⟨hmem, hkey⟩ := mem_rowsOf.mp hfirst
      rw [List.head?_cons, Option.any_some]
      constructor
      · exact fun hp => ⟨first, hmem, hkey, hp⟩
      · intro hexists
        obtain ⟨row, hrow, hkey', hp⟩ := hexists
        rw [hxs first hmem row hrow (hkey.trans hkey'.symm), hp]
  have huniform' : ∀ a ∈ rows', ∀ b ∈ rows', key a = key b → p a = p b :=
    fun a ha b hb => huniform a (h.mem_iff.mpr ha) b (h.mem_iff.mpr hb)
  rw [firstCount, firstCount, (keysOf_perm h).countP_eq]
  refine List.countP_congr fun k _ => ?_
  rw [hsome huniform, hsome huniform']
  exact exists_congr fun row => and_congr_left fun _ => h.mem_iff

/-- Counts over distinct keys differ when the predicates differ at one of them only. -/
theorem countP_ne_of_differs {ks : List κ} (hnodup : ks.Nodup) (hk : k ∈ ks) {f g : κ → Bool} (hdiffers : f k ≠ g k)
    (hsame : ∀ k', k' ≠ k → f k' = g k') : ks.countP f ≠ ks.countP g := by
  have hrest : (ks.erase k).countP f = (ks.erase k).countP g := by
    refine List.countP_congr fun k' hk' => ?_
    rw [hsame k' fun heq => hnodup.not_mem_erase (heq ▸ hk')]
  rw [(List.perm_cons_erase hk).countP_eq, (List.perm_cons_erase hk).countP_eq, List.countP_cons, List.countP_cons, hrest]
  cases hf : f k <;> cases hg : g k <;> simp_all

/-- Two rows of one group that the predicate tells apart count differently in either order. -/
theorem firstCount_swap {a b : α} (hkey : key a = key b) (hp : p a ≠ p b) (rest : List α) :
    firstCount key p (a :: b :: rest) ≠ firstCount key p (b :: a :: rest) := by
  have hkeys : keysOf key (a :: b :: rest) = keysOf key (b :: a :: rest) := by
    rw [keysOf, keysOf, List.map_cons, List.map_cons, List.map_cons, List.map_cons, hkey]
  have hmem : key a ∈ keysOf key (b :: a :: rest) := mem_keysOf.mpr ⟨a, by simp, rfl⟩
  rw [firstCount, firstCount, hkeys]
  refine countP_ne_of_differs nodup_keysOf hmem ?_ fun k' hk' => ?_
  · simpa [rowsOf, hkey] using hp
  · have ha : key a ≠ k' := Ne.symm hk'
    have hb : key b ≠ k' := hkey ▸ ha
    simp [rowsOf, ha, hb]

/-- A row of a group that agrees on the predicate is counted. -/
theorem firstCount_pos {a : α} (ha : a ∈ rows) (huniform : ∀ b ∈ rows, key a = key b → p b = true) :
    0 < firstCount key p rows := by
  refine List.countP_pos_iff.mpr ⟨key a, mem_keysOf.mpr ⟨a, ha, rfl⟩, ?_⟩
  cases hrows : rowsOf key (key a) rows with
  | nil =>
    have hmem : a ∈ rowsOf key (key a) rows := mem_rowsOf.mpr ⟨ha, rfl⟩
    rw [hrows] at hmem
    cases hmem
  | cons first rest =>
    have hfirst : first ∈ rowsOf key (key a) rows := hrows ▸ List.mem_cons_self
    obtain ⟨hmem, hkey⟩ := mem_rowsOf.mp hfirst
    exact huniform first hmem hkey.symm

/-- Where no two rows share a key, nothing is counted exactly when no row satisfies the predicate. -/
theorem firstCount_eq_zero (hnodup : (rows.map key).Nodup) : firstCount key p rows = 0 ↔ ∀ row ∈ rows, p row = false := by
  constructor
  · intro hzero a ha
    by_contra hp
    have hpos : 0 < firstCount key p rows := by
      refine firstCount_pos ha fun b hb hkey => ?_
      rw [← List.inj_on_of_nodup_map hnodup ha hb hkey]
      simpa using hp
    omega
  · intro hnone
    refine List.countP_eq_zero.mpr fun k _ => ?_
    cases hrows : rowsOf key k rows with
    | nil => exact Bool.false_ne_true
    | cons first rest =>
      have hfirst : first ∈ rowsOf key k rows := hrows ▸ List.mem_cons_self
      rw [List.head?_cons, Option.any_some, hnone first (mem_rowsOf.mp hfirst).1]
      exact Bool.false_ne_true

/-- The number of groups whose first row satisfies a predicate that may read the key. -/
theorem countP_groups {f : κ × List α → Bool} (h : ∀ row, row ∈ rows → ∀ rest, f (key row, row :: rest) = p row)
    (hnil : ∀ k, f (k, []) = false) : (groups key rows).countP f = firstCount key p rows := by
  rw [groups_eq, List.countP_map, firstCount]
  refine List.countP_congr fun k _ => ?_
  rw [Function.comp_apply]
  cases hrows : rowsOf key k rows with
  | nil => simp [hnil]
  | cons first rest =>
    have hfirst : first ∈ rowsOf key k rows := hrows ▸ List.mem_cons_self
    obtain ⟨hmem, rfl⟩ := mem_rowsOf.mp hfirst
    rw [h first hmem, List.head?_cons, Option.any_some]

end TaxStamp.Lib
