import Mathlib.Algebra.Order.Floor.Div
import TaxStamp.AuditCoverage
import TaxStamp.Lifecycle

/-!
# Issuance comes to its end

`issue_order` commits one chunk after another until one of them reports that the batch is
complete. Anything else may be committed between two chunks, chunks of other workers for the
same order included. The measure of the loop is the number of stamps that the order still
misses: nothing makes it larger, and a chunk makes it smaller by its size.
-/

namespace TaxStamp

open Lib

/-- One pass of the loop: what others commit before it, and what its transaction draws and reads off the clock. -/
structure IssuePass where
  others : List Event
  draws : Draws
  now : Time

/-- How the loop has ended within the passes it was given. -/
inductive IssueOutcome
  | returned (progress : IssuanceProgress) (chunks : ℕ) (s : Platform)
  | raised (fault : Fault)
  | unfinished

/-- A transaction of the loop has failed. -/
def IssueOutcome.failed : IssueOutcome → Bool
  | .raised _ => true
  | _ => false

/-- `issue_order` over its passes, with the chunk transactions committed so far. -/
def issueOrder (settings : Settings) (orderId : Uuid) (chunkSize : ℤ) (chunks : ℕ) :
    List IssuePass → Platform → IssueOutcome
  | [], _ => .unfinished
  | pass :: rest, s =>
    let s := run (step settings) s pass.others
    match issueOrderChunk settings pass.draws orderId chunkSize pass.now s.db with
    | .error fault => .raised fault
    | .ok (progress, db) =>
      if progress.completed then .returned progress (chunks + 1) { s with db := db }
      else issueOrder settings orderId chunkSize (chunks + 1) rest { s with db := db }

/-- The event is a chunk for the order. -/
def Event.issuesFor (orderId : Uuid) : Event → Prop
  | .issueChunk _ id _ _ => id = orderId
  | _ => False

/-! ### What a chunk reports -/

/-- The progress of a printed chunk. -/
theorem printChunk_reports {settings : Settings} {draws : Draws} {order : Order} {batch : StampBatch}
    {issuedNow chunkSize : ℤ} {now : Time} {progress : IssuanceProgress} {db db' : Db}
    (h : printChunk settings draws order batch issuedNow chunkSize now db = .ok (progress, db')) :
    progress.batchId = batch.id ∧ progress.requested = batch.requestedCount ∧
      progress.issued = issuedNow + min chunkSize (batch.requestedCount - issuedNow) := by
  simp only [printChunk, Tx.bind_ok] at h
  obtain ⟨start, db₁, -, expiresAt, db₂, -, added, db₃, -, -, db₄, -, -, db₅, -, hrest⟩ := h
  split at hrest
  · obtain ⟨O, T, B, M, f, -, -, -, -, -, rfl, -, -⟩ := completeBatch_ok hrest
    exact ⟨rfl, rfl, rfl⟩
  · obtain ⟨rfl, -⟩ := Tx.pure_ok.mp hrest
    exact ⟨rfl, rfl, rfl⟩

/-- A chunk reports the stamps that its batch has now, and that it is complete when they are as many as requested. -/
theorem issueOrderChunk_reports {settings : Settings} {draws : Draws} {orderId : Uuid} {chunkSize : ℤ} {now : Time}
    {progress : IssuanceProgress} {db db' : Db}
    (h : issueOrderChunk settings draws orderId chunkSize now db = .ok (progress, db')) :
    progress.issued = stampCount db' progress.batchId ∧
      (progress.completed = true ↔ progress.requested ≤ progress.issued) ∧
      ∃ b ∈ db'.stampBatches.rows, b.id = progress.batchId ∧ b.orderId = orderId ∧
        b.requestedCount = progress.requested := by
  simp only [issueOrderChunk, issueChunk, Tx.bind_ok, fetch_ok, Tx.require_ok, Tx.pure_ok] at h
  obtain ⟨result, db₁, ⟨order, db₂, ⟨hfetch, rfl⟩, -, db₃, ⟨hstatus, rfl⟩, batch, db₄, hensure, ⟨order', batch'⟩,
    db₅, hstart, hrest⟩, v, db₆, haudit, rfl, rfl⟩ := h
  obtain ⟨horder, hid⟩ := mem_of_filter_eq_singleton hfetch
  rw [decide_eq_true_eq] at hid
  obtain ⟨hbatch, -, B₁, hmem, -, rfl⟩ := ensureBatch_ok hensure
  obtain ⟨O₁, T₁, B₂, f₁, hf₁, -, -, hbatchId, hrequested, -, -, hB₂, rfl⟩ := startIssuance_ok hstart
  obtain ⟨A, -, rfl⟩ := auditProgress_ok haudit
  change B₂.rows = setBatch batch.id f₁ B₁.rows at hB₂
  simp only [Tx.read_ok] at hrest
  obtain ⟨issuedNow, db₇, ⟨rfl, rfl⟩, hrest⟩ := hrest
  have hworked : ∀ {f : StampBatch → StampBatch} {rows : List StampBatch}, KeepsBatch f →
      rows = setBatch batch.id f B₂.rows → ∃ b ∈ rows, b.id = batch.id ∧ b.orderId = orderId ∧
        b.requestedCount = batch.requestedCount := by
    intro f rows hf hrows
    have hkeeps := hf.comp hf₁
    refine ⟨(f ∘ f₁) batch, ?_, hkeeps.id batch, ?_, hkeeps.requestedCount batch⟩
    · rw [hrows, hB₂, setBatch_setBatch hf₁.id]
      exact List.mem_map.mpr ⟨batch, hmem, if_pos rfl⟩
    · rw [hkeeps.orderId, hbatch, hid]
  split at hrest
  · rename_i hnone
    obtain ⟨O, T, B, M, f, hf, -, hB, -, -, rfl, -, rfl⟩ := completeBatch_ok hrest
    rw [hbatchId] at hB
    refine ⟨rfl, ?_, ?_⟩
    · simp only [true_iff]
      omega
    · simp only [hbatchId, hrequested]
      exact hworked hf hB
  · obtain ⟨hprogressId, hprogressRequested, hprogressIssued⟩ := printChunk_reports hrest
    obtain ⟨added, O, T, B, C, S, M, f, hf, -, hsize, -, hclaimed, hcomplete, hS, hB, -, -, -, rfl⟩ :=
      printChunk_ok hrest
    rw [← hsize] at hprogressIssued
    rw [hbatchId] at hprogressId hB hclaimed
    rw [hrequested] at hprogressRequested
    rw [hprogressId, hprogressRequested, hprogressIssued, hcomplete, hrequested, hbatchId]
    refine ⟨?_, Iff.rfl, hworked hf hB⟩
    change _ = ((S.rows.countP fun s => s.batchId = batch.id : ℕ) : ℤ)
    have hall : added.countP (fun s => s.batchId = batch.id) = added.length :=
      List.countP_eq_length.mpr fun s hs => decide_eq_true (hclaimed.printed s hs).issued.2.1
    rw [hS, List.countP_append, hall]
    push_cast
    rfl

/-! ### The stamps an order misses -/

/-- The order is of a quantity and misses a number of its stamps. -/
structure Misses (db : Db) (orderId : Uuid) (quantity : ℤ) (missing : ℕ) : Prop where
  ordered : ∃ o ∈ db.orders.rows, o.id = orderId ∧ o.quantity = quantity
  count : ((db.stock.stampsOf orderId).length : ℤ) + missing = quantity

/-- An order has at most the stamps it asked for. -/
theorem Stocktake.stampsOf_le {db : Db} (h : Stocktake db) {o : Order} (ho : o ∈ db.orders.rows) :
    ((db.stock.stampsOf o.id).length : ℤ) ≤ o.quantity := by
  by_cases hstamped : db.stock.stampsOf o.id = []
  · have hcheck := db.orders.valid.check o ho
    simp only [orderSchema, Bool.and_eq_true, decide_eq_true_eq] at hcheck
    rw [hstamped]
    exact hcheck.1.1.1.1.1.le
  · exact ((h.stocked o ho).of_stamped hstamped).2.2.1

/-- The stamps an order misses are those between what it has and what it asked for. -/
theorem Stocktake.misses {db : Db} (h : Stocktake db) {o : Order} (ho : o ∈ db.orders.rows) :
    Misses db o.id o.quantity (o.quantity - (db.stock.stampsOf o.id).length).toNat := by
  refine ⟨⟨o, ho, rfl, rfl⟩, ?_⟩
  have hle := h.stampsOf_le ho
  omega

/-- The batch with which a chunk reports is the order's, and its stamps are all stamps of the order. -/
theorem Stocktake.batch_of_report {db : Db} (h : Stocktake db) {o : Order} (ho : o ∈ db.orders.rows) {b : StampBatch}
    (hb : b ∈ db.stampBatches.rows) (hid : b.orderId = o.id) :
    b.requestedCount = o.quantity ∧ stampCount db b.id = (db.stock.stampsOf o.id).length := by
  have hmem : b ∈ db.stock.batchesOf o.id := List.mem_filter.mpr ⟨hb, decide_eq_true hid⟩
  have hinBatch : db.stock.InBatch o b := by
    have hstocked := h.stocked o ho
    have hsame : ∀ b', db.stock.InBatch o b' → db.stock.InBatch o b := by
      intro b' hb'
      have hmem' := hmem
      rw [hb'.batches, List.mem_singleton] at hmem'
      rw [hmem']
      exact hb'
    by_cases hbefore : o.status.beforeIssue
    · rw [((Stock.stocked_beforeIssue hbefore).mp hstocked).batches] at hmem
      cases hmem
    · unfold Stock.Stocked at hstocked
      split at hstocked
      · obtain ⟨b', hb', -⟩ := hstocked
        exact hsame b' hb'
      · obtain ⟨b', hb', -⟩ := hstocked
        exact hsame b' hb'
      · rename_i hissuing hissued
        exact absurd ⟨hissuing, hissued⟩ hbefore
  refine ⟨hinBatch.requested, ?_⟩
  rw [stampCount, List.countP_eq_length_filter]
  refine congrArg (fun stamps : List Stamp => (stamps.length : ℤ)) (List.filter_congr fun s hs => ?_)
  rw [decide_eq_decide]
  constructor
  · intro hsbatch
    obtain ⟨b', hb', hid', horder'⟩ := h.stamps s hs
    rw [← horder', db.stock.batch_eq_of_id hb' hb (hid'.trans hsbatch), hid]
  · intro hsorder
    exact hinBatch.stamps s (List.mem_filter.mpr ⟨hs, decide_eq_true hsorder⟩)

/-- A chunk adds its stamps to its order. -/
theorem length_stampsOf_append {S S' : Table stampSchema} (B B' : Table stampBatchSchema) {added : List Stamp}
    (hS : S'.rows = S.rows ++ added) (orderId : Uuid) :
    ((⟨B', S'⟩ : Stock).stampsOf orderId).length =
      ((⟨B, S⟩ : Stock).stampsOf orderId).length + added.countP fun s => s.orderId = orderId := by
  unfold Stock.stampsOf
  change (S'.rows.filter _).length = (S.rows.filter _).length + _
  rw [hS, List.filter_append, List.length_append, ← List.countP_eq_length_filter (l := added)]

/-- Nothing takes stamps from an order, and only chunks for it give it stamps. -/
theorem Change.length_stampsOf {settings : Settings} {s : Platform} {e : Event} {db' : Db}
    (h : Change settings s e db') (orderId : Uuid) :
    (s.db.stock.stampsOf orderId).length ≤ (db'.stock.stampsOf orderId).length ∧
      (¬e.issuesFor orderId → (db'.stock.stampsOf orderId).length = (s.db.stock.stampsOf orderId).length) := by
  have hsame : ∀ {n : ℕ}, n = (s.db.stock.stampsOf orderId).length → (s.db.stock.stampsOf orderId).length ≤ n ∧
      (¬e.issuesFor orderId → n = (s.db.stock.stampsOf orderId).length) := fun heq => ⟨heq.ge, fun _ => heq⟩
  have hmarked : ∀ {g : Stamp → Stamp} {S : Table stampSchema} {B : Table stampBatchSchema}, KeepsStamp g →
      S.rows = s.db.stamps.rows.map g →
      ((⟨B, S⟩ : Stock).stampsOf orderId).length = (s.db.stock.stampsOf orderId).length := by
    intro g S B hg hS
    rw [Stock.stampsOf_relabel (t := s.db.stock) (B := B) hg hS, List.length_map]
  cases h with
  | sameCore _ _ hcore =>
    refine hsame ?_
    unfold Stock.stampsOf Db.stock
    rw [hcore.stamps]
  | submitted => exact hsame rfl
  | decided draws actor command now key order P db₁ A horder hid hstatus hrole hsubmitter hfirst hP heffect =>
    cases heffect <;> exact hsame rfl
  | cancelled => exact hsame rfl
  | ingested _ _ _ _ heffect => cases heffect <;> exact hsame rfl
  | issued draws id chunkSize now db' heffect =>
    obtain ⟨order, batch, base, added, complete, f, O, T, B, C, S, M, A, horder, hid, hstatus, hbatch, hbase, hadded,
      hcount, hcomplete, hf, hO, hT, hB, hS⟩ := heffect
    have hlength := length_stampsOf_append s.db.stampBatches B hS orderId
    refine ⟨hlength ▸ Nat.le_add_right _ _, fun hother => ?_⟩
    have hnone : added.countP (fun s => s.orderId = orderId) = 0 := by
      refine List.countP_eq_zero.mpr fun stamp hstamp hsame => hother ?_
      rw [decide_eq_true_eq, (hadded stamp hstamp).1, hid] at hsame
      exact hsame
    rw [hnone] at hlength
    exact hlength
  | inspected _ _ _ _ _ heffect =>
    obtain ⟨batch, inspection, g, N, S, V, B, A, hbatch, hstatus, hinspection, hfirst, hN, hg, hactive, hS, hB⟩ :=
      heffect
    exact hsame (hmarked hg hS)
  | activated _ _ _ _ _ _ _ _ heffect =>
    obtain ⟨g, S, V, A, hg, hactive, hS⟩ := heffect
    exact hsame (hmarked hg hS)
  | retired _ _ heffect =>
    obtain ⟨g, S, V, A, hg, hactive, hS⟩ := heffect
    exact hsame (hmarked hg hS)

/-! ### The passes of the loop -/

/-- How many chunks of a size the missing stamps take; a chunk is run even when none is missing. -/
def chunksNeeded (missing chunkSize : ℕ) : ℕ := max 1 (missing ⌈/⌉ chunkSize)

section Chunks

variable {missing chunkSize : ℕ} (hsize : 0 < chunkSize)
include hsize

/-- One chunk is enough for as many stamps as it takes. -/
theorem chunksNeeded_of_le (hle : missing ≤ chunkSize) : chunksNeeded missing chunkSize = 1 := by
  refine max_eq_left ?_
  rw [ceilDiv_le_iff_le_mul hsize]
  omega

/-- A chunk that is filled is one of those needed. -/
theorem chunksNeeded_of_lt (hlt : chunkSize < missing) :
    chunksNeeded missing chunkSize = chunksNeeded (missing - chunkSize) chunkSize + 1 := by
  have hrest : 1 ≤ (missing - chunkSize) ⌈/⌉ chunkSize := by
    by_contra hzero
    have hle : (missing - chunkSize) ⌈/⌉ chunkSize ≤ 0 := by omega
    rw [ceilDiv_le_iff_le_mul hsize] at hle
    omega
  have hsucc : missing ⌈/⌉ chunkSize = (missing - chunkSize) ⌈/⌉ chunkSize + 1 := by
    rw [Nat.ceilDiv_eq_add_pred_div, Nat.ceilDiv_eq_add_pred_div, ← Nat.add_div_right _ hsize]
    congr 1
    omega
  unfold chunksNeeded
  omega

/-- Fewer missing stamps need no more chunks. -/
theorem chunksNeeded_mono {missing' : ℕ} (hle : missing' ≤ missing) :
    chunksNeeded missing' chunkSize ≤ chunksNeeded missing chunkSize :=
  max_le_max le_rfl ((gc_mul_ceilDiv hsize).monotone_l hle)

end Chunks

variable {settings : Settings} {orderId : Uuid} {quantity : ℤ} {missing : ℕ}

/-- A step leaves the quantity of an order, and makes no order miss more. -/
theorem Misses.change {s : Platform} {e : Event} {db' : Db} (h : Misses s.db orderId quantity missing)
    (hstock : Stocktake db') (hchange : Change settings s e db') :
    ∃ missing' ≤ missing, Misses db' orderId quantity missing' ∧ (¬e.issuesFor orderId → missing' = missing) := by
  obtain ⟨⟨o, ho, rfl, rfl⟩, hcount⟩ := h
  obtain ⟨o', ho', hmoved⟩ := hchange.orderStep.persists ho
  obtain ⟨hgrows, hsame⟩ := hchange.length_stampsOf o.id
  have hmisses := hstock.misses ho'
  rw [hmoved.id, hmoved.quantity] at hmisses
  refine ⟨_, ?_, hmisses, fun hother => ?_⟩
  · omega
  · have heq := hsame hother
    omega

/-- What others commit leaves the quantity of an order, and makes it miss no more; it misses as many when none of
it is a chunk for the order. -/
theorem Misses.others (settings : Settings) {s : Platform} (h : Misses s.db orderId quantity missing) (hstock : Stocktake s.db)
    (events : List Event) :
    Stocktake (run (step settings) s events).db ∧
      ∃ missing' ≤ missing, Misses (run (step settings) s events).db orderId quantity missing' ∧
        ((∀ e ∈ events, ¬e.issuesFor orderId) → missing' = missing) := by
  induction events generalizing s missing with
  | nil => exact ⟨hstock, missing, le_rfl, h, fun _ => rfl⟩
  | cons e rest ih =>
    obtain ⟨first, hfirst, hmisses, hquiet⟩ := h.change (hstock.step settings s e) (step_change settings s e)
    obtain ⟨hstock', second, hsecond, hmisses', hquiet'⟩ := ih hmisses (hstock.step settings s e)
    refine ⟨hstock', second, hsecond.trans hfirst, hmisses', fun hothers => ?_⟩
    rw [hquiet' fun e' he' => hothers e' (List.mem_cons_of_mem _ he'), hquiet (hothers e List.mem_cons_self)]

/-- A chunk takes its size off the missing stamps, or all of them. -/
theorem Misses.chunk {draws : Draws} {chunkSize : ℕ} {now : Time} {db db' : Db}
    (h : Misses db orderId quantity missing) (hstock : Stocktake db)
    (heffect : IssueEffect settings draws orderId chunkSize now db db') :
    Misses db' orderId quantity (missing - chunkSize) := by
  obtain ⟨⟨o, ho, rfl, rfl⟩, hcount⟩ := h
  obtain ⟨o', ho', hmoved⟩ := (heffect.orderStep (.issueChunk draws o.id chunkSize now)).persists ho
  refine ⟨⟨o', ho', hmoved.id, hmoved.quantity⟩, ?_⟩
  obtain ⟨order, batch, base, added, complete, f, O, T, B, C, S, M, A, horder, hid, hstatus, hbatch, hbase, hadded,
    hfill, hcomplete, hf, hO, hT, hB, hS, hM, hissued, hnew, hclaimed, hanchor, hA, hchunk⟩ := heffect
  obtain rfl := order_eq_of_id db horder ho hid
  obtain ⟨hrequested, -, -, -⟩ := hstock.batch_of_issue horder hstatus hbase
  have hstamps := hstock.stampCount_eq horder hstatus hbase hf hB hbatch
  have hall : added.countP (fun s => s.orderId = order.id) = added.length :=
    List.countP_eq_length.mpr fun s hs => decide_eq_true (hadded s hs).1
  have hlength : ((⟨B, S⟩ : Stock).stampsOf order.id).length =
      (db.stock.stampsOf order.id).length + added.length := by
    rw [← hall]
    exact length_stampsOf_append _ _ hS order.id
  rw [hrequested, hstamps] at hfill hchunk
  change (((⟨B, S⟩ : Stock).stampsOf order.id).length : ℤ) + _ = _
  rw [hlength]
  rcases hfill with ⟨hfull, rfl⟩ | ⟨hpositive, -⟩
  · rw [List.length_nil]
    omega
  · rcases hchunk with rfl | hchunk
    · cases hpositive
    · omega

/-- A chunk transaction that does not fail reports the quantity of its order and the stamps it has now, and the
completion when none is missing any more. -/
theorem Misses.reported {draws : Draws} {chunkSize : ℕ} {now : Time} {progress : IssuanceProgress} {db db' : Db}
    (h : Misses db orderId quantity missing) (hstock : Stocktake db)
    (hchunk : issueOrderChunk settings draws orderId chunkSize now db = .ok (progress, db')) :
    Misses db' orderId quantity (missing - chunkSize) ∧ Stocktake db' ∧ progress.requested = quantity ∧
      progress.issued = quantity - (missing - chunkSize : ℕ) ∧
      (progress.completed = true ↔ missing ≤ chunkSize) := by
  have heffect := issueOrderChunk_ok hchunk
  have hmisses := h.chunk hstock heffect
  have hstock' := hstock.issued heffect
  obtain ⟨hissued, hcompleted, b, hb, hbatchId, hborder, hrequested⟩ := issueOrderChunk_reports hchunk
  obtain ⟨⟨o, ho, hid, hquantity⟩, hcount⟩ := hmisses
  obtain ⟨hall, hstamps⟩ := hstock'.batch_of_report ho hb (hborder.trans hid.symm)
  rw [hid] at hstamps
  rw [← hbatchId, hstamps] at hissued
  have hwhole : progress.requested = quantity := by
    rw [← hrequested, hall, hquantity]
  refine ⟨⟨⟨o, ho, hid, hquantity⟩, hcount⟩, hstock', hwhole, by omega, ?_⟩
  rw [hcompleted]
  omega

/-- The loop returns when it is given the passes that the missing stamps take, provided no transaction fails. -/
theorem Misses.returns {chunkSize : ℕ} (hsize : 0 < chunkSize) {passes : List IssuePass} {s : Platform}
    (h : Misses s.db orderId quantity missing) (hstock : Stocktake s.db) (before : ℕ)
    (hfailed : (issueOrder settings orderId chunkSize before passes s).failed = false)
    (hpasses : chunksNeeded missing chunkSize ≤ passes.length) :
    ∃ progress chunks s', issueOrder settings orderId chunkSize before passes s = .returned progress chunks s' ∧
      (progress.completed = true ∧ progress.issued = quantity ∧ progress.requested = quantity) ∧
      Misses s'.db orderId quantity 0 ∧ chunks ≤ before + chunksNeeded missing chunkSize ∧
      ((∀ pass ∈ passes, ∀ e ∈ pass.others, ¬e.issuesFor orderId) →
        chunks = before + chunksNeeded missing chunkSize) := by
  induction passes generalizing s missing before with
  | nil =>
    have hone : 1 ≤ chunksNeeded missing chunkSize := le_max_left _ _
    rw [List.length_nil] at hpasses
    omega
  | cons pass rest ih =>
    obtain ⟨hstock₁, missing₁, hfewer, hmisses₁, hquiet⟩ := h.others settings hstock pass.others
    have hneeded := chunksNeeded_mono hsize hfewer
    rw [List.length_cons] at hpasses
    simp only [issueOrder] at hfailed ⊢
    cases hchunk : issueOrderChunk settings pass.draws orderId chunkSize pass.now
        (run (step settings) s pass.others).db with
    | error fault =>
      rw [hchunk] at hfailed
      cases hfailed
    | ok result =>
      obtain ⟨progress, db'⟩ := result
      obtain ⟨hmisses₂, hstock₂, hrequested, hissued, hcompleted⟩ := hmisses₁.reported hstock₁ hchunk
      rw [hchunk] at hfailed
      simp only at hfailed ⊢
      by_cases hlast : missing₁ ≤ chunkSize
      · -- this chunk prints all that is missing
        have hnone : missing₁ - chunkSize = 0 := by omega
        have hone := chunksNeeded_of_le hsize hlast
        rw [hnone] at hmisses₂ hissued
        have hdone : progress.completed = true := hcompleted.mpr hlast
        rw [if_pos hdone]
        refine ⟨_, _, _, rfl, ⟨hdone, by omega, hrequested⟩, hmisses₂, by omega, fun hothers => ?_⟩
        have hsame := hquiet (hothers pass List.mem_cons_self)
        rw [← hsame, hone]
      · -- this chunk is filled, and as many fewer are missing
        have hfilled := chunksNeeded_of_lt hsize (Nat.lt_of_not_le hlast)
        have hopen : ¬progress.completed = true := fun hdone => hlast (hcompleted.mp hdone)
        rw [if_neg hopen] at hfailed ⊢
        obtain ⟨final, chunks, s', hreturned, hexact, hmisses', hmost, hquiet'⟩ :=
          ih hmisses₂ hstock₂ (before + 1) hfailed (by omega)
        refine ⟨final, chunks, s', hreturned, hexact, hmisses', by omega, fun hothers => ?_⟩
        have hsame := hquiet (hothers pass List.mem_cons_self)
        have hchunks := hquiet' fun pass' hpass' => hothers pass' (List.mem_cons_of_mem _ hpass')
        rw [← hsame]
        omega

/-- Issuance terminates with the exact count: for every order of a reachable platform and every size of chunks,
`issue_order` returns after at most one chunk, or as many as the missing stamps take, if no transaction fails;
it reports the quantity of the order as issued and requested, and the order has that many stamps. It takes exactly
that many chunks when nobody else issues for the order. -/
theorem issueOrder_returns (settings : Settings) (companies : Table companySchema) (tariffs : Table tariffSchema)
    (events : List Event) :
    let s := run (step settings) (Platform.initial companies tariffs) events
    ∀ o ∈ s.db.orders.rows, o.status = .paid ∨ o.status = .issuing ∨ o.status = .issued →
      ∀ (chunkSize : ℕ) (passes : List IssuePass), 1 ≤ chunkSize →
      let needed := max 1 ((o.quantity - (s.db.stock.stampsOf o.id).length).toNat ⌈/⌉ chunkSize)
      needed ≤ passes.length →
      (issueOrder settings o.id chunkSize 0 passes s).failed = false →
      ∃ progress chunks s', issueOrder settings o.id chunkSize 0 passes s = .returned progress chunks s' ∧
        progress.completed = true ∧ progress.issued = o.quantity ∧ progress.requested = o.quantity ∧
        ((s'.db.stock.stampsOf o.id).length : ℤ) = o.quantity ∧
        chunks ≤ needed ∧
        ((∀ pass ∈ passes, ∀ e ∈ pass.others, ¬e.issuesFor o.id) → chunks = needed) := by
  intro s o ho _ chunkSize passes hsize needed hpasses hfailed
  have hstock := Stocktake.run settings companies tariffs events
  obtain ⟨progress, chunks, s', hreturned, ⟨hcompleted, hissued, hrequested⟩, hmisses, hmost, hquiet⟩ :=
    (hstock.misses ho).returns hsize hstock 0 hfailed hpasses
  rw [Nat.zero_add] at hmost hquiet
  have hcount := hmisses.count
  exact ⟨progress, chunks, s', hreturned, hcompleted, hissued, hrequested, by omega, hmost, hquiet⟩

/-- Two passes that nobody interrupts. -/
def samplePasses : List IssuePass := [⟨[], sampleDraws 4, sampleNow⟩, ⟨[], sampleDraws 5, sampleNow⟩]

/-- Two stamps are paid for; printed one by one they take two chunks. -/
theorem issueOrder_returns_sample :
    ∃ progress s', issueOrder sampleSettings ⟨100⟩ 1 0 samplePasses (run (step sampleSettings) samplePlatform samplePair) =
        .returned progress 2 s' ∧ progress.issued = 2 := by
  have hreturns := issueOrder_returns sampleSettings sampleCompanies sampleTariffs samplePair
  have hfacts : (∃ o ∈ (run (step sampleSettings) samplePlatform samplePair).db.orders.rows,
      o.id = ⟨100⟩ ∧ o.status = .paid ∧ o.quantity = 2 ∧
        (run (step sampleSettings) samplePlatform samplePair).db.stock.stampsOf o.id = []) ∧
      (issueOrder sampleSettings ⟨100⟩ 1 0 samplePasses
        (run (step sampleSettings) samplePlatform samplePair)).failed = false := by
    decide +kernel
  generalize run (step sampleSettings) samplePlatform samplePair = s at hreturns hfacts ⊢
  obtain ⟨⟨o, ho, hid, hstatus, hquantity, hstamps⟩, hcommitted⟩ := hfacts
  have hneeded : max 1 ((o.quantity - (s.db.stock.stampsOf o.id).length).toNat ⌈/⌉ 1) = 2 := by
    rw [hquantity, hstamps]
    decide
  rw [← hid] at hcommitted
  obtain ⟨progress, chunks, s', hreturned, -, hissued, -, -, -, hquiet⟩ :=
    hreturns o ho (.inl hstatus) 1 samplePasses le_rfl hneeded.le hcommitted
  have hchunks := hquiet (by simp [samplePasses])
  rw [hid, hchunks, hneeded] at hreturned
  exact ⟨progress, s', hreturned, hissued.trans hquantity⟩

end TaxStamp
