import Mathlib.Data.Nat.Log
import Mathlib.Tactic.Common
import Mathlib.Tactic.Ring

/-!
# Hash trees over lists

The root of a hash tree can be computed level by level, where an odd last node is carried
to the next level, or by splitting the list at the largest power of two below its length.
Both computations form the same pairs and give the same root: the split point is even
until two nodes are left, so that pairing up never crosses it, and pairing up halves it.

When pairs that are formed can be told apart by their nodes, and nodes from leaves, the
root determines the list.
-/

namespace TaxStamp.Lib

variable {δ : Type}

/-! ### The split point -/

/-- The largest power of two below a number from two on. -/
def splitPoint (n : ℕ) : ℕ := 2 ^ Nat.log 2 (n - 1)

/-- The split point is below the number. -/
theorem splitPoint_lt {n : ℕ} (h : 2 ≤ n) : splitPoint n < n := by
  have hle : 2 ^ Nat.log 2 (n - 1) ≤ n - 1 := Nat.pow_log_le_self 2 (by omega)
  unfold splitPoint
  omega

/-- The split point is positive. -/
theorem splitPoint_pos (n : ℕ) : 0 < splitPoint n := Nat.two_pow_pos _

/-- The split point is the largest power of two below the number. -/
theorem splitPoint_isGreatest {n : ℕ} (h : 2 ≤ n) :
    IsGreatest {k | (∃ e, k = 2 ^ e) ∧ k < n} (splitPoint n) := by
  refine ⟨⟨⟨_, rfl⟩, splitPoint_lt h⟩, ?_⟩
  rintro k ⟨⟨e, rfl⟩, hlt⟩
  refine Nat.pow_le_pow_right (by decide) (Nat.le_log_of_pow_le (by decide) ?_)
  omega

/-- Halving a number, rounded up, halves its split point. -/
theorem splitPoint_half {n : ℕ} (h : 3 ≤ n) : splitPoint n = 2 * splitPoint ((n + 1) / 2) := by
  have hhalf : (n + 1) / 2 - 1 = (n - 1) / 2 := by omega
  have hlog : Nat.log 2 (n - 1) = Nat.log 2 ((n - 1) / 2) + 1 := Nat.log_of_one_lt_of_le (by decide) (by omega)
  rw [splitPoint, splitPoint, hhalf, hlog, pow_succ, Nat.mul_comm]

/-! ### Levels -/

/-- One level up: join neighbours and carry an odd last node. -/
def pairUp (node : δ → δ → δ) : List δ → List δ
  | a :: b :: rest => node a b :: pairUp node rest
  | level => level

/-- The pairs that are joined on a level. -/
def levelPairs : List δ → List (δ × δ)
  | a :: b :: rest => (a, b) :: levelPairs rest
  | _ => []

/-- Go up until one node is left. -/
def reduce (node : δ → δ → δ) : ℕ → List δ → List δ
  | 0, level => level
  | fuel + 1, level => if 1 < level.length then reduce node fuel (pairUp node level) else level

/-- The pairs that are joined on the way up. -/
def reducePairs (node : δ → δ → δ) : ℕ → List δ → List (δ × δ)
  | 0, _ => []
  | fuel + 1, level =>
    if 1 < level.length then levelPairs level ++ reducePairs node fuel (pairUp node level) else []

variable (node : δ → δ → δ)

/-- There is no level above an empty one. -/
@[simp] theorem pairUp_nil : pairUp node [] = [] := by simp [pairUp]

/-- A node without a partner is carried up. -/
@[simp] theorem pairUp_singleton (a : δ) : pairUp node [a] = [a] := by simp [pairUp]

/-- A level has half as many nodes as the one below, rounded up. -/
theorem pairUp_length (l : List δ) : (pairUp node l).length = (l.length + 1) / 2 := by
  induction l using pairUp.induct with
  | case1 a b rest ih =>
    rw [pairUp, List.length_cons, ih, List.length_cons, List.length_cons]
    omega
  | case2 l hshort =>
    match l, hshort with
    | [], _ => simp
    | [a], _ => simp
    | a :: b :: rest, hshort => exact absurd rfl (hshort a b rest)

/-- Pairing up does not cross an even position: the part before it. -/
theorem pairUp_take (k : ℕ) (l : List δ) : pairUp node (l.take (2 * k)) = (pairUp node l).take k := by
  induction k generalizing l with
  | zero => simp
  | succ k ih =>
    match l with
    | [] => simp
    | [a] => simp [Nat.mul_succ]
    | a :: b :: rest =>
      rw [Nat.mul_succ, List.take_succ_cons, List.take_succ_cons, pairUp, pairUp, List.take_succ_cons, ih]

/-- Pairing up does not cross an even position: the part after it. -/
theorem pairUp_drop (k : ℕ) (l : List δ) : pairUp node (l.drop (2 * k)) = (pairUp node l).drop k := by
  induction k generalizing l with
  | zero => rfl
  | succ k ih =>
    match l with
    | [] => simp
    | [a] => simp [Nat.mul_succ]
    | a :: b :: rest =>
      rw [Nat.mul_succ, List.drop_succ_cons, List.drop_succ_cons, pairUp, List.drop_succ_cons, ih]

/-- The pairs before an even position are pairs of the level. -/
theorem levelPairs_take (k : ℕ) (l : List δ) : levelPairs (l.take (2 * k)) = (levelPairs l).take k := by
  induction k generalizing l with
  | zero => rfl
  | succ k ih =>
    match l with
    | [] => rfl
    | [a] => rfl
    | a :: b :: rest =>
      rw [Nat.mul_succ, List.take_succ_cons, List.take_succ_cons, levelPairs, levelPairs, List.take_succ_cons, ih]

/-- The pairs after an even position are pairs of the level. -/
theorem levelPairs_drop (k : ℕ) (l : List δ) : levelPairs (l.drop (2 * k)) = (levelPairs l).drop k := by
  induction k generalizing l with
  | zero => rfl
  | succ k ih =>
    match l with
    | [] => rfl
    | [a] => simp [Nat.mul_succ, levelPairs]
    | a :: b :: rest =>
      rw [Nat.mul_succ, List.drop_succ_cons, List.drop_succ_cons, levelPairs, List.drop_succ_cons, ih]

/-! ### Trees -/

/-- The root of the tree that splits its list at the split point; an empty list has a root of its own. -/
def treeRoot (empty : δ) : List δ → δ
  | [] => empty
  | [x] => x
  | x :: y :: rest =>
    node (treeRoot empty ((x :: y :: rest).take (splitPoint (rest.length + 2))))
      (treeRoot empty ((x :: y :: rest).drop (splitPoint (rest.length + 2))))
termination_by l => l.length
decreasing_by
  · have hlt := splitPoint_lt (n := rest.length + 2) (by omega)
    simp only [List.length_take, List.length_cons]
    omega
  · have hpos := splitPoint_pos (rest.length + 2)
    simp only [List.length_drop, List.length_cons]
    omega

/-- The pairs that are joined in that tree. -/
def treePairs (empty : δ) : List δ → List (δ × δ)
  | [] => []
  | [_] => []
  | x :: y :: rest =>
    (treeRoot node empty ((x :: y :: rest).take (splitPoint (rest.length + 2))),
      treeRoot node empty ((x :: y :: rest).drop (splitPoint (rest.length + 2)))) ::
    (treePairs empty ((x :: y :: rest).take (splitPoint (rest.length + 2))) ++
      treePairs empty ((x :: y :: rest).drop (splitPoint (rest.length + 2))))
termination_by l => l.length
decreasing_by
  · have hlt := splitPoint_lt (n := rest.length + 2) (by omega)
    simp only [List.length_take, List.length_cons]
    omega
  · have hpos := splitPoint_pos (rest.length + 2)
    simp only [List.length_drop, List.length_cons]
    omega

variable (empty : δ)

/-- From two nodes on a root joins the roots of two parts. -/
theorem treeRoot_split {l : List δ} (h : 2 ≤ l.length) :
    treeRoot node empty l = node (treeRoot node empty (l.take (splitPoint l.length)))
      (treeRoot node empty (l.drop (splitPoint l.length))) := by
  match l, h with
  | x :: y :: rest, _ => rw [treeRoot]; rfl

/-- From two nodes on the pairs are that of the roots and those of the parts. -/
theorem treePairs_split {l : List δ} (h : 2 ≤ l.length) :
    treePairs node empty l = (treeRoot node empty (l.take (splitPoint l.length)),
      treeRoot node empty (l.drop (splitPoint l.length))) ::
        (treePairs node empty (l.take (splitPoint l.length)) ++
          treePairs node empty (l.drop (splitPoint l.length))) := by
  match l, h with
  | x :: y :: rest, _ => rw [treePairs]; rfl

/-- A single node is its own root. -/
@[simp] theorem treeRoot_singleton (x : δ) : treeRoot node empty [x] = x := by rw [treeRoot]

/-- A single node is hashed with no other. -/
@[simp] theorem treePairs_singleton (x : δ) : treePairs node empty [x] = [] := by rw [treePairs]

/-- Nothing is hashed over no nodes. -/
@[simp] theorem treePairs_nil : treePairs node empty [] = [] := by rw [treePairs]

/-- A list of two nodes is split between them. -/
theorem splitPoint_two : splitPoint 2 = 1 := by simp [splitPoint]

section Split

variable {l : List δ} (hlength : 3 ≤ l.length)
include hlength

/-- From three nodes on the parts of the next level come from the parts of the level. -/
theorem pairUp_parts :
    (pairUp node l).take (splitPoint (pairUp node l).length) = pairUp node (l.take (splitPoint l.length)) ∧
      (pairUp node l).drop (splitPoint (pairUp node l).length) = pairUp node (l.drop (splitPoint l.length)) := by
  rw [pairUp_length, splitPoint_half hlength, pairUp_take, pairUp_drop]
  exact ⟨rfl, rfl⟩

/-- Both parts are shorter. -/
theorem parts_lt : (l.take (splitPoint l.length)).length < l.length ∧ (l.drop (splitPoint l.length)).length < l.length := by
  have hlt := splitPoint_lt (n := l.length) (by omega)
  have hpos := splitPoint_pos l.length
  rw [List.length_take, List.length_drop]
  omega

/-- The next level has two nodes at least. -/
theorem two_le_pairUp : 2 ≤ (pairUp node l).length := by
  rw [pairUp_length]
  omega

end Split

/-- Going up a level keeps the root. -/
theorem treeRoot_pairUp (l : List δ) : treeRoot node empty (pairUp node l) = treeRoot node empty l := by
  induction hn : l.length using Nat.strong_induction_on generalizing l with
  | _ n ih =>
    subst hn
    match l with
    | [] => simp
    | [x] => simp
    | [x, y] =>
      rw [treeRoot_split node empty (l := [x, y]) (by simp)]
      simp [pairUp, splitPoint_two]
    | x :: y :: z :: rest =>
      have hlength : 3 ≤ (x :: y :: z :: rest).length := by simp
      generalize x :: y :: z :: rest = l at ih hlength ⊢
      obtain ⟨hleft, hright⟩ := parts_lt hlength
      rw [treeRoot_split node empty (two_le_pairUp node hlength), treeRoot_split node empty (l := l) (by omega),
        (pairUp_parts node hlength).1, (pairUp_parts node hlength).2, ih _ hleft _ rfl, ih _ hright _ rfl]

/-- A pair of the tree is one of its first level or of the tree above that. -/
theorem mem_treePairs {l : List δ} {p : δ × δ} (h : p ∈ treePairs node empty l) :
    p ∈ levelPairs l ∨ p ∈ treePairs node empty (pairUp node l) := by
  induction hn : l.length using Nat.strong_induction_on generalizing l with
  | _ n ih =>
    subst hn
    match l with
    | [] => simp at h
    | [x] => simp at h
    | [x, y] =>
      rw [treePairs_split node empty (l := [x, y]) (by simp)] at h
      simp [splitPoint_two] at h
      exact .inl (by simp [levelPairs, h])
    | x :: y :: z :: rest =>
      have hlength : 3 ≤ (x :: y :: z :: rest).length := by simp
      generalize x :: y :: z :: rest = l at ih hlength h ⊢
      obtain ⟨hlt, hlt'⟩ := parts_lt hlength
      rw [treePairs_split node empty (two_le_pairUp node hlength), (pairUp_parts node hlength).1,
        (pairUp_parts node hlength).2]
      rw [treePairs_split node empty (l := l) (by omega)] at h
      rcases List.mem_cons.mp h with hroot | hparts
      · rw [treeRoot_pairUp, treeRoot_pairUp]
        exact .inr (List.mem_cons.mpr (.inl hroot))
      · rcases List.mem_append.mp hparts with hleft | hright
        · rcases ih _ hlt hleft rfl with hlevel | habove
          · rw [splitPoint_half hlength, levelPairs_take] at hlevel
            exact .inl (List.mem_of_mem_take hlevel)
          · exact .inr (List.mem_cons_of_mem _ (List.mem_append_left _ habove))
        · rcases ih _ hlt' hright rfl with hlevel | habove
          · rw [splitPoint_half hlength, levelPairs_drop] at hlevel
            exact .inl (List.mem_of_mem_drop hlevel)
          · exact .inr (List.mem_cons_of_mem _ (List.mem_append_right _ habove))

/-- A root is a leaf of the tree or the node of one of its pairs. -/
theorem treeRoot_cases {l : List δ} (hne : l ≠ []) :
    treeRoot node empty l ∈ l ∨ ∃ p ∈ treePairs node empty l, treeRoot node empty l = node p.1 p.2 := by
  match l, hne with
  | [x], _ => exact .inl (by simp)
  | x :: y :: rest, _ =>
    have hlong : 2 ≤ (x :: y :: rest).length := by simp
    refine .inr ⟨(_, _), ?_, treeRoot_split node empty hlong⟩
    rw [treePairs_split node empty hlong]
    exact List.mem_cons_self

/-- The left part of a joined pair is a leaf or the node of another pair. -/
theorem fst_of_mem_treePairs {l : List δ} {p : δ × δ} (h : p ∈ treePairs node empty l) :
    p.1 ∈ l ∨ ∃ q ∈ treePairs node empty l, p.1 = node q.1 q.2 := by
  induction hn : l.length using Nat.strong_induction_on generalizing l with
  | _ n ih =>
    subst hn
    match l with
    | [] => simp at h
    | [x] => simp at h
    | x :: y :: rest =>
      have hlong : 2 ≤ (x :: y :: rest).length := by simp
      generalize x :: y :: rest = l at ih hlong h ⊢
      have hlt := splitPoint_lt hlong
      have hpos := splitPoint_pos l.length
      have hleft : ∀ q ∈ treePairs node empty (l.take (splitPoint l.length)), q ∈ treePairs node empty l := by
        intro q hq
        rw [treePairs_split node empty hlong]
        exact List.mem_cons_of_mem _ (List.mem_append_left _ hq)
      have hright : ∀ q ∈ treePairs node empty (l.drop (splitPoint l.length)), q ∈ treePairs node empty l := by
        intro q hq
        rw [treePairs_split node empty hlong]
        exact List.mem_cons_of_mem _ (List.mem_append_right _ hq)
      rw [treePairs_split node empty hlong] at h
      rcases List.mem_cons.mp h with rfl | hparts
      · have hne : l.take (splitPoint l.length) ≠ [] := List.ne_nil_of_length_pos (by rw [List.length_take]; omega)
        rcases treeRoot_cases node empty hne with hleaf | ⟨q, hq, hroot⟩
        · exact .inl (List.mem_of_mem_take hleaf)
        · exact .inr ⟨q, hleft q hq, hroot⟩
      · rcases List.mem_append.mp hparts with hpart | hpart
        · rcases ih _ (by rw [List.length_take]; omega) hpart rfl with hleaf | ⟨q, hq, hroot⟩
          · exact .inl (List.mem_of_mem_take hleaf)
          · exact .inr ⟨q, hleft q hq, hroot⟩
        · rcases ih _ (by rw [List.length_drop]; omega) hpart rfl with hleaf | ⟨q, hq, hroot⟩
          · exact .inl (List.mem_of_mem_drop hleaf)
          · exact .inr ⟨q, hright q hq, hroot⟩

/-- Going up ends with the root of the tree. -/
theorem reduce_eq {fuel : ℕ} {l : List δ} (hne : l ≠ []) (hfuel : l.length ≤ fuel + 1) :
    reduce node fuel l = [treeRoot node empty l] := by
  induction fuel generalizing l with
  | zero =>
    match l, hne with
    | [x], _ => simp [reduce]
    | x :: y :: rest, _ => simp at hfuel
  | succ fuel ih =>
    rw [reduce]
    split
    · rename_i hlong
      have hlength := pairUp_length node l
      rw [ih (List.ne_nil_of_length_pos (by omega)) (by omega), treeRoot_pairUp]
    · rename_i hshort
      match l, hne with
      | [x], _ => simp
      | x :: y :: rest, _ => simp at hshort

/-- Every pair of the tree is joined on the way up. -/
theorem mem_reducePairs {fuel : ℕ} {l : List δ} {p : δ × δ} (hfuel : l.length ≤ fuel + 1)
    (h : p ∈ treePairs node empty l) : p ∈ reducePairs node fuel l := by
  have hshort : l.length ≤ 1 → False := by
    intro hle
    match l, hle with
    | [], _ => simp at h
    | [x], _ => simp at h
  induction fuel generalizing l with
  | zero => exact absurd hfuel fun hle => hshort (by omega)
  | succ fuel ih =>
    have hlong : 1 < l.length := by
      by_contra hle
      exact hshort (by omega)
    have hlength := pairUp_length node l
    rw [reducePairs, if_pos hlong]
    rcases mem_treePairs node empty h with hlevel | habove
    · exact List.mem_append_left _ hlevel
    · refine List.mem_append_right _ (ih (by omega) habove fun hle => ?_)
      generalize pairUp node l = above at habove hle
      match above, hle with
      | [], _ => simp at habove
      | [x], _ => simp at habove

/-! ### Commitment -/

/-- The root determines the list, when the nodes of the joined pairs determine the pairs and are no leaves. -/
theorem treeRoot_inj {pairs : Set (δ × δ)}
    (hpairs : ∀ p ∈ pairs, ∀ q ∈ pairs, node p.1 p.2 = node q.1 q.2 → p = q) {xs ys : List δ}
    (hxs : ∀ p ∈ treePairs node empty xs, p ∈ pairs) (hys : ∀ p ∈ treePairs node empty ys, p ∈ pairs)
    (hleaf : ∀ x, x ∈ xs ∨ x ∈ ys → ∀ p ∈ pairs, x ≠ node p.1 p.2) (hnexs : xs ≠ []) (hneys : ys ≠ [])
    (h : treeRoot node empty xs = treeRoot node empty ys) : xs = ys := by
  have hlong : ∀ {l : List δ}, l ≠ [] → (∀ x, l ≠ [x]) → 2 ≤ l.length := by
    intro l hne hsingle
    match l, hne, hsingle with
    | [x], _, hsingle => exact absurd rfl (hsingle x)
    | x :: y :: rest, _, _ => simp
  have hroot : ∀ {l : List δ} (hl : 2 ≤ l.length), (∀ p ∈ treePairs node empty l, p ∈ pairs) →
      (treeRoot node empty (l.take (splitPoint l.length)), treeRoot node empty (l.drop (splitPoint l.length))) ∈ pairs := by
    intro l hl hall
    refine hall _ ?_
    rw [treePairs_split node empty hl]
    exact List.mem_cons_self
  by_cases hx : ∃ x, xs = [x]
  · obtain ⟨x, rfl⟩ := hx
    by_cases hy : ∃ y, ys = [y]
    · obtain ⟨y, rfl⟩ := hy
      simpa [treeRoot] using h
    · -- a leaf is not a node
      have hl := hlong hneys fun y hy' => hy ⟨y, hy'⟩
      rw [treeRoot_split node empty hl, treeRoot] at h
      exact absurd h (hleaf x (.inl (List.mem_singleton_self x)) _ (hroot hl hys))
  · have hlx := hlong hnexs fun x hx' => hx ⟨x, hx'⟩
    by_cases hy : ∃ y, ys = [y]
    · obtain ⟨y, rfl⟩ := hy
      rw [treeRoot_split node empty hlx, treeRoot] at h
      exact absurd h.symm (hleaf y (.inr (List.mem_singleton_self y)) _ (hroot hlx hxs))
    · have hly := hlong hneys fun y hy' => hy ⟨y, hy'⟩
      have hltx := splitPoint_lt hlx
      have hlty := splitPoint_lt hly
      have hposx := splitPoint_pos xs.length
      have hposy := splitPoint_pos ys.length
      rw [treeRoot_split node empty hlx, treeRoot_split node empty hly] at h
      have hparts := hpairs _ (hroot hlx hxs) _ (hroot hly hys) h
      have hsubx : ∀ p, p ∈ treePairs node empty (xs.take (splitPoint xs.length)) ∨
          p ∈ treePairs node empty (xs.drop (splitPoint xs.length)) → p ∈ pairs := by
        intro p hp
        refine hxs p ?_
        rw [treePairs_split node empty hlx]
        exact List.mem_cons_of_mem _ (List.mem_append.mpr hp)
      have hsuby : ∀ p, p ∈ treePairs node empty (ys.take (splitPoint ys.length)) ∨
          p ∈ treePairs node empty (ys.drop (splitPoint ys.length)) → p ∈ pairs := by
        intro p hp
        refine hys p ?_
        rw [treePairs_split node empty hly]
        exact List.mem_cons_of_mem _ (List.mem_append.mpr hp)
      have hleft : xs.take (splitPoint xs.length) = ys.take (splitPoint ys.length) := by
        refine treeRoot_inj hpairs (fun p hp => hsubx p (.inl hp)) (fun p hp => hsuby p (.inl hp)) ?_ ?_ ?_
          (congrArg Prod.fst hparts)
        · exact fun x hx => hleaf x (hx.imp List.mem_of_mem_take List.mem_of_mem_take)
        · exact List.ne_nil_of_length_pos (by rw [List.length_take]; omega)
        · exact List.ne_nil_of_length_pos (by rw [List.length_take]; omega)
      have hright : xs.drop (splitPoint xs.length) = ys.drop (splitPoint ys.length) := by
        refine treeRoot_inj hpairs (fun p hp => hsubx p (.inr hp)) (fun p hp => hsuby p (.inr hp)) ?_ ?_ ?_
          (congrArg Prod.snd hparts)
        · exact fun x hx => hleaf x (hx.imp List.mem_of_mem_drop List.mem_of_mem_drop)
        · exact List.ne_nil_of_length_pos (by rw [List.length_drop]; omega)
        · exact List.ne_nil_of_length_pos (by rw [List.length_drop]; omega)
      rw [← List.take_append_drop (splitPoint xs.length) xs, hleft, hright, List.take_append_drop]
termination_by xs.length
decreasing_by
  · rw [List.length_take]
    omega
  · rw [List.length_drop]
    omega

end TaxStamp.Lib
