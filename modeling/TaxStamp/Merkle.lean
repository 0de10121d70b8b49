import TaxStamp.Canonical
import TaxStamp.Issuance
import TaxStamp.Lib.MerkleTree

/-!
# The Merkle root of a batch

The root is computed level by level. It is the Merkle tree hash of RFC 6962, which splits
the leaves at the largest power of two below their number, and it commits to the list: on
the messages that are hashed for two lists, a hash without collisions gives the same root
only for the same leaves in the same order.
-/

namespace TaxStamp

open Lib

variable (crypto : Crypto)

/-- The message of an inner node. -/
def nodeMessage (left right : Bytes) : Bytes := 1 :: (left ++ right)

/-- The hash of an inner node. -/
def merkleNode (left right : Bytes) : Bytes := crypto.sha256 (nodeMessage left right)

/-- A level is formed by pairing up. -/
theorem merkleLevel_eq (level : List Bytes) : merkleLevel crypto level = pairUp (merkleNode crypto) level := by
  induction level using merkleLevel.induct with
  | case1 a b rest ih => rw [merkleLevel, pairUp, ih, merkleNode, nodeMessage]
  | case2 level hshort => rw [merkleLevel.eq_2 crypto level hshort, pairUp.eq_2 _ level hshort]

/-- The loop over the levels goes up until one node is left. -/
theorem merkleLoop_eq (fuel : ℕ) (level : List Bytes) : merkleLoop crypto fuel level = reduce (merkleNode crypto) fuel level := by
  induction fuel generalizing level with
  | zero => rfl
  | succ fuel ih => rw [merkleLoop, reduce, merkleLevel_eq, ih]

/-- The Merkle tree hash of RFC 6962. -/
def merkleTreeHash : List String → Bytes
  | [] => crypto.sha256 []
  | [leaf] => merkleLeaf crypto leaf
  | a :: b :: rest =>
    merkleNode crypto (merkleTreeHash ((a :: b :: rest).take (splitPoint (rest.length + 2))))
      (merkleTreeHash ((a :: b :: rest).drop (splitPoint (rest.length + 2))))
termination_by leaves => leaves.length
decreasing_by
  · have hlt := splitPoint_lt (n := rest.length + 2) (by omega)
    simp only [List.length_take, List.length_cons]
    omega
  · have hpos := splitPoint_pos (rest.length + 2)
    simp only [List.length_drop, List.length_cons]
    omega

/-- The tree hash is the root of the tree over the leaf hashes. -/
theorem merkleTreeHash_eq (leaves : List String) :
    merkleTreeHash crypto leaves = treeRoot (merkleNode crypto) (crypto.sha256 []) (leaves.map (merkleLeaf crypto)) := by
  induction leaves using merkleTreeHash.induct with
  | case1 => rw [merkleTreeHash, List.map_nil, treeRoot]
  | case2 leaf => rw [merkleTreeHash, List.map_cons, List.map_nil, treeRoot_singleton]
  | case3 a b rest hleft hright =>
    have hlong : 2 ≤ ((a :: b :: rest).map (merkleLeaf crypto)).length := by simp
    rw [merkleTreeHash, hleft, hright, treeRoot_split _ _ hlong, List.length_map, ← List.map_take, ← List.map_drop]
    rfl

/-- The loop ends with the tree hash. -/
theorem merkleLoop_hash {leaves : List String} (hne : leaves ≠ []) {fuel : ℕ} (hfuel : leaves.length ≤ fuel) :
    merkleLoop crypto fuel (leaves.map (merkleLeaf crypto)) = [merkleTreeHash crypto leaves] := by
  have hhashes : leaves.map (merkleLeaf crypto) ≠ [] := by simpa using hne
  rw [merkleLoop_eq, reduce_eq _ (crypto.sha256 []) hhashes (by rw [List.length_map]; omega), merkleTreeHash_eq]

/-- The root is the text of the tree hash. -/
theorem merkleRoot_eq {leaves : List String} (hne : leaves ≠ []) :
    merkleRoot crypto leaves = .ok (hexText (merkleTreeHash crypto leaves)) := by
  rw [merkleRoot, merkleLoop_hash crypto hne le_rfl]

/-- The iterative Merkle root is that of RFC 6962: for every list of leaves that is not empty the loop ends, however
long it may run, with one node, the recursive hash, and the root is its text. The recursive hash of one leaf is the leaf
hash, and that of more leaves is the node hash of the two parts at the largest power of two below their number. -/
theorem merkleRoot_rfc6962 (leaves : List String) (hne : leaves ≠ []) :
    (∀ fuel, leaves.length ≤ fuel →
      merkleLoop crypto fuel (leaves.map (merkleLeaf crypto)) = [merkleTreeHash crypto leaves]) ∧
    merkleRoot crypto leaves = .ok (hexText (merkleTreeHash crypto leaves)) ∧
    (∀ leaf, merkleTreeHash crypto [leaf] = crypto.sha256 (0 :: utf8 leaf)) ∧
    (2 ≤ leaves.length → ∃ k, IsGreatest {k | (∃ e, k = 2 ^ e) ∧ k < leaves.length} k ∧
      merkleTreeHash crypto leaves =
        crypto.sha256 (1 :: (merkleTreeHash crypto (leaves.take k) ++ merkleTreeHash crypto (leaves.drop k)))) := by
  refine ⟨fun fuel hfuel => merkleLoop_hash crypto hne hfuel, merkleRoot_eq crypto hne, fun leaf => ?_, fun hlong => ?_⟩
  · rw [merkleTreeHash, merkleLeaf]
  · refine ⟨splitPoint leaves.length, splitPoint_isGreatest hlong, ?_⟩
    match leaves, hlong with
    | a :: b :: rest, _ => rw [merkleTreeHash, merkleNode, nodeMessage]; rfl

/-- A hash with digests of 32 bytes that tells short lists of single letters apart. -/
def sampleHash : Crypto where
  sha256 message :=
    message.headD 0 :: UInt8.ofNat (message.foldl (fun sum byte => 3 * sum + byte.toNat) 0) :: .replicate 30 0
  hmacSha256 _ message := message

/-- The root of three leaves is their tree hash. -/
theorem merkleRoot_rfc6962_three : ["a", "b", "c"] ≠ [] ∧
    merkleRoot sampleHash ["a", "b", "c"] = .ok (hexText (merkleTreeHash sampleHash ["a", "b", "c"])) :=
  ⟨by simp, (merkleRoot_rfc6962 sampleHash ["a", "b", "c"] (by simp)).2.1⟩

/-! ### Commitment -/

/-- The messages that are hashed on the way up. -/
def merkleLoopMessages : ℕ → List Bytes → List Bytes
  | 0, _ => []
  | fuel + 1, level =>
    if 1 < level.length then
      (levelPairs level).map (fun pair => nodeMessage pair.1 pair.2) ++
        merkleLoopMessages fuel (merkleLevel crypto level)
    else []

/-- The messages that are hashed for a root. -/
def merkleMessages (leaves : List String) : List Bytes :=
  leaves.map (fun leaf => 0 :: utf8 leaf) ++
    merkleLoopMessages crypto leaves.length (leaves.map (merkleLeaf crypto))

/-- The message of every pair that is joined on the way up is hashed. -/
theorem mem_merkleLoopMessages {fuel : ℕ} {level : List Bytes} {p : Bytes × Bytes}
    (h : p ∈ reducePairs (merkleNode crypto) fuel level) :
    nodeMessage p.1 p.2 ∈ merkleLoopMessages crypto fuel level := by
  induction fuel generalizing level with
  | zero => simp [reducePairs] at h
  | succ fuel ih =>
    rw [reducePairs] at h
    rw [merkleLoopMessages]
    split at h
    · rename_i hlong
      rw [if_pos hlong, merkleLevel_eq]
      rcases List.mem_append.mp h with hlevel | habove
      · exact List.mem_append_left _ (List.mem_map_of_mem hlevel)
      · exact List.mem_append_right _ (ih habove)
    · cases h

/-- Lists with the same images are the same, when no two of their elements share their image. -/
theorem map_injOn {α β : Type} {f : α → β} {xs ys : List α} (hf : ∀ x ∈ xs, ∀ y ∈ ys, f x = f y → x = y)
    (h : xs.map f = ys.map f) : xs = ys := by
  induction xs generalizing ys with
  | nil => exact (List.map_eq_nil_iff.mp h.symm).symm
  | cons x xs ih =>
    cases ys with
    | nil => cases h
    | cons y ys =>
      rw [List.map_cons, List.map_cons, List.cons.injEq] at h
      rw [hf x List.mem_cons_self y List.mem_cons_self h.1,
        ih (fun x hx y hy => hf x (List.mem_cons_of_mem _ hx) y (List.mem_cons_of_mem _ hy)) h.2]

/-- The message of every leaf is hashed. -/
theorem leaf_mem_merkleMessages {leaves : List String} {leaf : String} (h : leaf ∈ leaves) :
    0 :: utf8 leaf ∈ merkleMessages crypto leaves :=
  List.mem_append_left _ (List.mem_map_of_mem h)

/-- The pairs that are joined over the leaf hashes of a list. -/
def merklePairs (leaves : List String) : List (Bytes × Bytes) :=
  treePairs (merkleNode crypto) (crypto.sha256 []) (leaves.map (merkleLeaf crypto))

/-- The message of every pair is hashed. -/
theorem node_mem_merkleMessages {leaves : List String} {p : Bytes × Bytes} (h : p ∈ merklePairs crypto leaves) :
    nodeMessage p.1 p.2 ∈ merkleMessages crypto leaves := by
  refine List.mem_append_right _ (mem_merkleLoopMessages crypto ?_)
  exact mem_reducePairs _ _ (by rw [List.length_map]; omega) h

/-- The left part of a pair is the digest of a hashed message. -/
theorem fst_digest {leaves : List String} {p : Bytes × Bytes} (h : p ∈ merklePairs crypto leaves) :
    ∃ message ∈ merkleMessages crypto leaves, p.1 = crypto.sha256 message := by
  rcases fst_of_mem_treePairs _ _ h with hleaf | ⟨q, hq, hnode⟩
  · obtain ⟨leaf, hmem, hdigest⟩ := List.mem_map.mp hleaf
    exact ⟨0 :: utf8 leaf, leaf_mem_merkleMessages crypto hmem, hdigest.symm⟩
  · exact ⟨nodeMessage q.1 q.2, node_mem_merkleMessages crypto hq, hnode⟩

/-- The Merkle root commits to the list: when the hash has no collision on the messages that are hashed for two lists,
and its digests of them have 32 bytes, then equal roots are of equal lists. -/
theorem merkleRoot_commits (xs ys : List String) (hxs : xs ≠ []) (hys : ys ≠ [])
    (hinj : Set.InjOn crypto.sha256 {m | m ∈ merkleMessages crypto xs ∨ m ∈ merkleMessages crypto ys})
    (hsize : ∀ m, m ∈ merkleMessages crypto xs ∨ m ∈ merkleMessages crypto ys → (crypto.sha256 m).length = 32)
    (h : merkleRoot crypto xs = merkleRoot crypto ys) : xs = ys := by
  have hroot : treeRoot (merkleNode crypto) (crypto.sha256 []) (xs.map (merkleLeaf crypto)) =
      treeRoot (merkleNode crypto) (crypto.sha256 []) (ys.map (merkleLeaf crypto)) := by
    rw [merkleRoot_eq crypto hxs, merkleRoot_eq crypto hys] at h
    rw [← merkleTreeHash_eq, ← merkleTreeHash_eq]
    exact hexText_injective (Except.ok.inj h)
  -- the pairs of both trees
  let pairs : Set (Bytes × Bytes) := {p | p ∈ merklePairs crypto xs ∨ p ∈ merklePairs crypto ys}
  have hmessage : ∀ p ∈ pairs, nodeMessage p.1 p.2 ∈ merkleMessages crypto xs ∨
      nodeMessage p.1 p.2 ∈ merkleMessages crypto ys := fun p hp =>
    hp.imp (node_mem_merkleMessages crypto) (node_mem_merkleMessages crypto)
  have hlength : ∀ p ∈ pairs, p.1.length = 32 := by
    rintro p (hp | hp)
    · obtain ⟨message, hmem, hdigest⟩ := fst_digest crypto hp
      rw [hdigest]
      exact hsize message (.inl hmem)
    · obtain ⟨message, hmem, hdigest⟩ := fst_digest crypto hp
      rw [hdigest]
      exact hsize message (.inr hmem)
  have hpairs : ∀ p ∈ pairs, ∀ q ∈ pairs, merkleNode crypto p.1 p.2 = merkleNode crypto q.1 q.2 → p = q := by
    intro p hp q hq hnode
    have hsame := (List.cons.inj (hinj (hmessage p hp) (hmessage q hq) hnode)).2
    obtain ⟨hleft, hright⟩ := List.append_inj hsame ((hlength p hp).trans (hlength q hq).symm)
    exact Prod.ext hleft hright
  have hleaf : ∀ x, x ∈ xs.map (merkleLeaf crypto) ∨ x ∈ ys.map (merkleLeaf crypto) → ∀ p ∈ pairs,
      x ≠ merkleNode crypto p.1 p.2 := by
    intro x hx p hp hnode
    have hdigest : ∃ leaf, (0 :: utf8 leaf ∈ merkleMessages crypto xs ∨ 0 :: utf8 leaf ∈ merkleMessages crypto ys) ∧
        crypto.sha256 (0 :: utf8 leaf) = x := by
      rcases hx with hx | hx
      · obtain ⟨leaf, hmem, hdigest⟩ := List.mem_map.mp hx
        exact ⟨leaf, .inl (leaf_mem_merkleMessages crypto hmem), hdigest⟩
      · obtain ⟨leaf, hmem, hdigest⟩ := List.mem_map.mp hx
        exact ⟨leaf, .inr (leaf_mem_merkleMessages crypto hmem), hdigest⟩
    obtain ⟨leaf, hmem, rfl⟩ := hdigest
    have htag := (List.cons.inj (hinj hmem (hmessage p hp) hnode)).1
    exact absurd htag (by decide)
  have hhashes := treeRoot_inj (merkleNode crypto) (crypto.sha256 []) hpairs (fun p hp => .inl hp) (fun p hp => .inr hp) hleaf
    (by simpa using hxs) (by simpa using hys) hroot
  -- equal leaf hashes are of equal leaves
  refine map_injOn ?_ hhashes
  intro x hx y hy hxy
  have hbytes := hinj (.inl (leaf_mem_merkleMessages crypto hx)) (.inr (leaf_mem_merkleMessages crypto hy)) hxy
  exact utf8_injective (List.cons.inj hbytes).2

/-- The sample hash meets the conditions on two orders of two leaves and on three leaves, whose roots differ. -/
theorem merkleRoot_commits_sample :
    merkleRoot sampleHash (["a", "b"] ++ ["c"]) = merkleRoot sampleHash ["a", "b", "c"] ∧
      ["a", "b"] ++ ["c"] = ["a", "b", "c"] ∧ merkleRoot sampleHash ["a", "b"] ≠ merkleRoot sampleHash ["b", "a"] := by
  have hgood : ∀ xs ∈ [["a", "b", "c"], ["a", "b"], ["b", "a"]], ∀ ys ∈ [["a", "b", "c"], ["a", "b"], ["b", "a"]],
      ∀ m ∈ merkleMessages sampleHash xs ++ merkleMessages sampleHash ys, (sampleHash.sha256 m).length = 32 ∧
        ∀ m' ∈ merkleMessages sampleHash xs ++ merkleMessages sampleHash ys,
          sampleHash.sha256 m = sampleHash.sha256 m' → m = m' := by
    decide +kernel
  have happly : ∀ xs ∈ [["a", "b", "c"], ["a", "b"], ["b", "a"]], ∀ ys ∈ [["a", "b", "c"], ["a", "b"], ["b", "a"]],
      xs ≠ [] → ys ≠ [] → merkleRoot sampleHash xs = merkleRoot sampleHash ys → xs = ys := by
    intro xs hxs ys hys hnexs hneys
    refine merkleRoot_commits sampleHash xs ys hnexs hneys (fun m hm m' hm' => ?_) (fun m hm => ?_)
    · exact (hgood xs hxs ys hys m (List.mem_append.mpr hm)).2 m' (List.mem_append.mpr hm')
    · exact (hgood xs hxs ys hys m (List.mem_append.mpr hm)).1
  refine ⟨rfl, ?_, fun hroot => ?_⟩
  · exact happly _ (by decide) _ (by decide) (by decide) (by decide) rfl
  · exact absurd (happly _ (by decide) _ (by decide) (by decide) (by decide) hroot) (by decide)

end TaxStamp
