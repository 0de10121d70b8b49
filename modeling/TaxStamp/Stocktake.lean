import TaxStamp.Settlement

/-!
# Batches and stamps of an order

Only issuance creates batches and stamps. An order has none before it is paid, one batch
of its quantity from then on, and as many stamps as it ordered exactly when its issuance
is complete. Inspection, activation, voiding and expiry rewrite batches and stamps in
place and never move a stamp.
-/

namespace TaxStamp

open Lib

/-- The tables that record what was printed. -/
structure Stock where
  batches : Table stampBatchSchema
  stamps : Table stampSchema

/-- The stock of a database. -/
def Db.stock (db : Db) : Stock := ⟨db.stampBatches, db.stamps⟩

namespace Stock

variable (t : Stock)

/-- The batches of an order. -/
def batchesOf (orderId : Uuid) : List StampBatch := t.batches.rows.filter fun b => b.orderId = orderId

/-- The stamps of an order. -/
def stampsOf (orderId : Uuid) : List Stamp := t.stamps.rows.filter fun s => s.orderId = orderId

/-- The order has neither batch nor stamps. -/
structure Unstocked (o : Order) : Prop where
  batches : t.batchesOf o.id = []
  stamps : t.stampsOf o.id = []

/-- The order has one batch of its quantity, and its stamps are all in it. -/
structure InBatch (o : Order) (b : StampBatch) : Prop where
  batches : t.batchesOf o.id = [b]
  requested : b.requestedCount = o.quantity
  stamps : ∀ s ∈ t.stampsOf o.id, s.batchId = b.id

/-- What the stock holds about an order, by its status. -/
def Stocked (o : Order) : Prop :=
  match o.status with
  | .issuing => ∃ b, t.InBatch o b ∧ ((t.stampsOf o.id).length : ℤ) < o.quantity
  | .issued => ∃ b, t.InBatch o b ∧ ((t.stampsOf o.id).length : ℤ) = o.quantity
  | _ => t.Unstocked o

end Stock

/-- Every batch has its order, every stamp its batch of the same order, and every order its stock. -/
structure Stocktake (db : Db) : Prop where
  batches : ∀ b ∈ db.stock.batches.rows, b.orderId ∈ db.orders.rows.map Order.id
  stamps : ∀ s ∈ db.stock.stamps.rows, ∃ b ∈ db.stock.batches.rows, b.id = s.batchId ∧ b.orderId = s.orderId
  stocked : ∀ o ∈ db.orders.rows, db.stock.Stocked o

/-- A platform with reference data only has no stock. -/
theorem Stocktake.initial (companies : Table companySchema) (tariffs : Table tariffSchema) :
    Stocktake (Db.initial companies tariffs) := by
  refine ⟨?_, ?_, ?_⟩ <;> intro x hx <;> cases hx

/-- Batches with one identifier are one batch. -/
theorem Stock.batch_eq_of_id (t : Stock) {b b' : StampBatch} (hb : b ∈ t.batches.rows)
    (hb' : b' ∈ t.batches.rows) (hid : b.id = b'.id) : b = b' :=
  t.batches.eq_of_clash hb hb' (by simp [stampBatchSchema, hid])

/-- A status in which an order has no stock. -/
def OrderStatus.beforeIssue (status : OrderStatus) : Prop := status ≠ .issuing ∧ status ≠ .issued

/-- Before issuance an order has no stock. -/
theorem Stock.stocked_beforeIssue {t : Stock} {o : Order} (hstatus : o.status.beforeIssue) :
    t.Stocked o ↔ t.Unstocked o := by
  unfold Stock.Stocked
  obtain ⟨hissuing, hissued⟩ := hstatus
  cases hs : o.status <;> simp_all

section Preservation

variable {db : Db} (h : Stocktake db)
include h

/-- A transaction that leaves orders, batches and stamps alone keeps the stock. -/
theorem Stocktake.frame {db' : Db} (horders : db'.orders = db.orders) (hstock : db'.stock = db.stock) :
    Stocktake db' where
  batches := by
    rw [hstock, horders]
    exact h.batches
  stamps := by
    rw [hstock]
    exact h.stamps
  stocked := by
    rw [hstock, horders]
    exact h.stocked

/-- A move between statuses before issuance keeps the stock. -/
theorem Stocktake.move {O : Table orderSchema} {order : Order} {status : OrderStatus} {now : Time} {db' : Db}
    (horder : order ∈ db.orders.rows) (hold : order.status.beforeIssue) (hnew : status.beforeIssue)
    (hO : O.rows = moveOrder order.id status now db.orders.rows) (horders : db'.orders = O)
    (hstock : db'.stock = db.stock) : Stocktake db' where
  batches := by
    rw [hstock, horders, hO, ids_moveOrder]
    exact h.batches
  stamps := by
    rw [hstock]
    exact h.stamps
  stocked o ho := by
    rw [horders, hO] at ho
    rw [hstock]
    obtain ⟨old, hmem, ⟨hid, rfl⟩ | ⟨-, rfl⟩⟩ := mem_moveOrder.mp ho
    · obtain rfl : old = order := order_eq_of_id db hmem horder hid
      obtain ⟨hb, hs⟩ := (Stock.stocked_beforeIssue hold).mp (h.stocked old hmem)
      exact (Stock.stocked_beforeIssue hnew).mpr ⟨hb, hs⟩
    · exact h.stocked o hmem

/-- A submission adds an order without stock. -/
theorem Stocktake.submitted {draft : Order} {compliant : Bool} {now : Time} {O : Table orderSchema} {db' : Db}
    (hfresh : ∀ o ∈ db.orders.rows, o.id ≠ draft.id)
    (hO : O.rows = db.orders.rows ++ [draft.withStatus (submissionStatus compliant) now])
    (horders : db'.orders = O) (hstock : db'.stock = db.stock) : Stocktake db' := by
  have hnew : draft.id ∉ db.orders.rows.map Order.id := by
    intro hmem
    obtain ⟨o, ho, hid⟩ := List.mem_map.mp hmem
    exact hfresh o ho hid
  have hunstocked : db.stock.Unstocked draft := by
    constructor
    · refine List.filter_eq_nil_iff.mpr fun b hb hid => ?_
      simp only [decide_eq_true_eq] at hid
      exact hnew (hid ▸ h.batches b hb)
    · refine List.filter_eq_nil_iff.mpr fun s hs hid => ?_
      simp only [decide_eq_true_eq] at hid
      obtain ⟨b, hb, -, horder⟩ := h.stamps s hs
      exact hnew (hid ▸ horder ▸ h.batches b hb)
  constructor
  · intro b hb
    rw [hstock] at hb
    rw [horders, hO, List.map_append]
    exact List.mem_append_left _ (h.batches b hb)
  · rw [hstock]
    exact h.stamps
  · intro o ho
    rw [horders, hO, List.mem_append, List.mem_singleton] at ho
    rw [hstock]
    rcases ho with ho | rfl
    · exact h.stocked o ho
    · cases compliant <;> exact ⟨hunstocked.batches, hunstocked.stamps⟩

end Preservation

namespace Stock

variable {t : Stock}

/-- An order without stock has none whatever its status. -/
theorem Unstocked.withStatus {o : Order} (h : t.Unstocked o) (status : OrderStatus) (now : Time) :
    t.Unstocked (o.withStatus status now) := ⟨h.batches, h.stamps⟩

/-- The stock of an order is the same in tables that hold the same about it. -/
theorem Stocked.congr {t' : Stock} {o : Order} (h : t.Stocked o) (hb : t'.batchesOf o.id = t.batchesOf o.id)
    (hs : t'.stampsOf o.id = t.stampsOf o.id) : t'.Stocked o := by
  have hunstocked : t.Unstocked o → t'.Unstocked o := fun h => ⟨hb.trans h.batches, hs.trans h.stamps⟩
  have hinBatch : ∀ b, t.InBatch o b → t'.InBatch o b := fun b h =>
    ⟨hb.trans h.batches, h.requested, by rw [hs]; exact h.stamps⟩
  unfold Stocked at h ⊢
  rw [hs]
  cases hstatus : o.status <;> simp only [hstatus] at h ⊢ <;>
    first
      | exact hunstocked h
      | exact h.imp fun b hb => ⟨hinBatch b hb.1, hb.2⟩

section Relabel

variable {B : Table stampBatchSchema} {S : Table stampSchema} {f : StampBatch → StampBatch} {g : Stamp → Stamp}
  (hf : KeepsBatch f) (hB : B.rows = t.batches.rows.map f)
  (hg : KeepsStamp g) (hS : S.rows = t.stamps.rows.map g)

/-- Rewriting batches in place rewrites the batches of an order in place. -/
theorem batchesOf_relabel (hf : KeepsBatch f) (hB : B.rows = t.batches.rows.map f) (orderId : Uuid) :
    (⟨B, S⟩ : Stock).batchesOf orderId = (t.batchesOf orderId).map f := by
  change B.rows.filter _ = (t.batches.rows.filter _).map f
  rw [hB, List.filter_map]
  congr 1
  refine List.filter_congr fun b _ => ?_
  simp only [Function.comp_apply, hf.orderId]

/-- Rewriting stamps in place rewrites the stamps of an order in place. -/
theorem stampsOf_relabel (hg : KeepsStamp g) (hS : S.rows = t.stamps.rows.map g) (orderId : Uuid) :
    (⟨B, S⟩ : Stock).stampsOf orderId = (t.stampsOf orderId).map g := by
  change S.rows.filter _ = (t.stamps.rows.filter _).map g
  rw [hS, List.filter_map]
  congr 1
  refine List.filter_congr fun s _ => ?_
  simp only [Function.comp_apply, hg.orderId]

include hf hB hg hS

/-- Rewriting batches and stamps in place keeps the stock of an order. -/
theorem Stocked.relabel {o : Order} (h : t.Stocked o) : (⟨B, S⟩ : Stock).Stocked o := by
  have hbatches := batchesOf_relabel (S := S) hf hB o.id
  have hstamps := stampsOf_relabel (B := B) hg hS o.id
  have hunstocked : t.Unstocked o → (⟨B, S⟩ : Stock).Unstocked o := by
    rintro ⟨hb, hs⟩
    exact ⟨by rw [hbatches, hb, List.map_nil], by rw [hstamps, hs, List.map_nil]⟩
  have hinBatch : ∀ b, t.InBatch o b → (⟨B, S⟩ : Stock).InBatch o (f b) := by
    intro b hb
    refine ⟨by rw [hbatches, hb.batches, List.map_cons, List.map_nil], (hf.requestedCount b).trans hb.requested, ?_⟩
    intro s hs
    rw [hstamps, List.mem_map] at hs
    obtain ⟨old, hold, rfl⟩ := hs
    rw [hg.batchId, hf.id]
    exact hb.stamps old hold
  have hlength : ((⟨B, S⟩ : Stock).stampsOf o.id).length = (t.stampsOf o.id).length := by
    rw [hstamps, List.length_map]
  unfold Stocked at h ⊢
  rw [hlength]
  cases hs : o.status <;> simp only [hs] at h ⊢ <;>
    first
      | exact hunstocked h
      | exact h.imp' f fun b hb => ⟨hinBatch b hb.1, hb.2⟩

/-- Rewriting batches and stamps in place keeps their references. -/
theorem stamps_relabel
    (h : ∀ s ∈ t.stamps.rows, ∃ b ∈ t.batches.rows, b.id = s.batchId ∧ b.orderId = s.orderId) :
    ∀ s ∈ S.rows, ∃ b ∈ B.rows, b.id = s.batchId ∧ b.orderId = s.orderId := by
  intro s hs
  rw [hS, List.mem_map] at hs
  obtain ⟨old, hold, rfl⟩ := hs
  obtain ⟨b, hb, hid, horder⟩ := h old hold
  refine ⟨f b, ?_, ?_, ?_⟩
  · rw [hB]
    exact List.mem_map_of_mem hb
  · rw [hf.id, hg.batchId]
    exact hid
  · rw [hf.orderId, hg.orderId]
    exact horder

end Relabel

/-- A batch rewritten by its identifier is rewritten in place. -/
theorem keepsBatch_ite {f : StampBatch → StampBatch} (hf : KeepsBatch f) (p : StampBatch → Prop)
    [DecidablePred p] : KeepsBatch fun b => if p b then f b else b := by
  refine ⟨fun b => ?_, fun b => ?_, fun b => ?_⟩ <;> split
  exacts [hf.id b, rfl, hf.orderId b, rfl, hf.requestedCount b, rfl]

end Stock

/-- Rewriting batches and stamps in place keeps the stocktake. -/
theorem Stocktake.relabel {db db' : Db} (h : Stocktake db) {f : StampBatch → StampBatch} {g : Stamp → Stamp}
    (hf : KeepsBatch f) (hg : KeepsStamp g) (horders : db'.orders = db.orders)
    (hB : db'.stampBatches.rows = db.stampBatches.rows.map f)
    (hS : db'.stamps.rows = db.stamps.rows.map g) : Stocktake db' where
  batches b hb := by
    change b ∈ db'.stampBatches.rows at hb
    rw [hB, List.mem_map] at hb
    obtain ⟨old, hold, rfl⟩ := hb
    rw [horders, hf.orderId]
    exact h.batches old hold
  stamps := Stock.stamps_relabel (t := db.stock) hf hB hg hS h.stamps
  stocked o ho := by
    rw [horders] at ho
    exact (h.stocked o ho).relabel hf hB hg hS

section Issue

variable {db : Db} (h : Stocktake db) {order : Order} (horder : order ∈ db.orders.rows)
  {batch : StampBatch} {base : List StampBatch}
  (hstatus : order.status = .paid ∨ order.status = .issuing ∨ order.status = .issued)
  (hbase : (db.stampBatches.rows.filter (fun b => b.orderId = order.id) = [batch] ∧
      base = db.stampBatches.rows) ∨
    (db.stampBatches.rows.filter (fun b => b.orderId = order.id) = [] ∧
      batch.requestedCount = order.quantity ∧ base = db.stampBatches.rows ++ [batch]))
include h horder hstatus hbase

/-- A chunk works on the only batch, of the order's quantity, that holds all its stamps; the batch is
new exactly when the order has just been paid. -/
theorem Stocktake.batch_of_issue :
    batch.requestedCount = order.quantity ∧ (∀ s ∈ db.stock.stampsOf order.id, s.batchId = batch.id) ∧
      ((db.stock.stampsOf order.id).length : ℤ) ≤ order.quantity ∧
      (order.status = .issued → ((db.stock.stampsOf order.id).length : ℤ) = order.quantity) := by
  have hstocked := h.stocked order horder
  have hquantity : 0 < order.quantity := by
    have hcheck := db.orders.valid.check order horder
    simp only [orderSchema, Bool.and_eq_true, decide_eq_true_eq] at hcheck
    exact hcheck.1.1.1.1.1
  have hinBatch : ∀ b, db.stock.InBatch order b →
      batch.requestedCount = order.quantity ∧ ∀ s ∈ db.stock.stampsOf order.id, s.batchId = batch.id := by
    intro b hb
    have hfilter : db.stampBatches.rows.filter (fun b => b.orderId = order.id) = [b] := hb.batches
    rcases hbase with ⟨hold, -⟩ | ⟨hnone, -⟩
    · rw [hfilter] at hold
      obtain rfl : b = batch := by simpa using hold
      exact ⟨hb.requested, hb.stamps⟩
    · rw [hfilter] at hnone
      contradiction
  rcases hstatus with hs | hs | hs
  · have hunstocked := (Stock.stocked_beforeIssue ⟨by rw [hs]; decide, by rw [hs]; decide⟩).mp hstocked
    have hnone : db.stampBatches.rows.filter (fun b => b.orderId = order.id) = [] := hunstocked.batches
    have hstamps := hunstocked.stamps
    rcases hbase with ⟨hold, -⟩ | ⟨-, hrequested, -⟩
    · rw [hnone] at hold
      contradiction
    · refine ⟨hrequested, ?_, ?_, ?_⟩
      · rw [hstamps]
        simp
      · rw [hstamps]
        simpa using hquantity.le
      · rw [hs]
        intro hne
        contradiction
  · unfold Stock.Stocked at hstocked
    rw [hs] at hstocked
    obtain ⟨b, hb, hlt⟩ := hstocked
    obtain ⟨hrequested, hstamps⟩ := hinBatch b hb
    refine ⟨hrequested, hstamps, hlt.le, ?_⟩
    rw [hs]
    intro hne
    contradiction
  · unfold Stock.Stocked at hstocked
    rw [hs] at hstocked
    obtain ⟨b, hb, heq⟩ := hstocked
    obtain ⟨hrequested, hstamps⟩ := hinBatch b hb
    exact ⟨hrequested, hstamps, heq.le, fun _ => heq⟩

variable {B : Table stampBatchSchema} {f : StampBatch → StampBatch} (hf : KeepsBatch f)
  (hB : B.rows = setBatch batch.id f base)

omit h horder hstatus hbase in
include hf hB in
/-- A new batch has a new identifier. -/
theorem Stocktake.batch_ne_of_new (hnew : base = db.stampBatches.rows ++ [batch]) :
    ∀ b ∈ db.stampBatches.rows, b.id ≠ batch.id := by
  intro b hb hid
  have hkeeps := Stock.keepsBatch_ite hf fun b => b.id = batch.id
  have hdistinct := B.valid.distinct
  rw [hB, hnew, setBatch, List.pairwise_map, List.pairwise_append] at hdistinct
  have hclash := hdistinct.2.2 b hb batch (List.mem_singleton.mpr rfl)
  have hids := (hkeeps.id b).trans (hid.trans (hkeeps.id batch).symm)
  simp [stampBatchSchema, hids] at hclash

omit horder hstatus in
include hf hB in
/-- A stamp is in the batch of a chunk only if it is of the chunk's order. -/
theorem Stocktake.order_of_batch (hbatch : batch.orderId = order.id) {s : Stamp} (hs : s ∈ db.stamps.rows)
    (hid : s.batchId = batch.id) : s.orderId = order.id := by
  obtain ⟨b, hb, hbid, hborder⟩ := h.stamps s hs
  rcases hbase with ⟨hold, -⟩ | ⟨-, -, hnew⟩
  · have hsame := db.stock.batch_eq_of_id hb (mem_of_filter_eq_singleton hold).1 (hbid.trans hid)
    rw [← hborder, hsame, hbatch]
  · exact absurd (hbid.trans hid) (Stocktake.batch_ne_of_new hf hB hnew b hb)

include hf hB in
/-- The stamps of the batch are the stamps of the order. -/
theorem Stocktake.stampCount_eq (hbatch : batch.orderId = order.id) :
    stampCount db batch.id = (db.stock.stampsOf order.id).length := by
  have hstamps := (h.batch_of_issue horder hstatus hbase).2.1
  have hfilter : db.stamps.rows.filter (fun s => s.batchId = batch.id) = db.stock.stampsOf order.id := by
    refine List.filter_congr fun s hs => ?_
    rw [decide_eq_decide]
    constructor
    · exact h.order_of_batch hbase hf hB hbatch hs
    · intro hsorder
      exact hstamps s (List.mem_filter.mpr ⟨hs, decide_eq_true hsorder⟩)
  rw [stampCount, List.countP_eq_length_filter, hfilter]

omit h horder hstatus in
include hf hB in
/-- After a chunk its order has exactly the batch it worked on. -/
theorem Stocktake.batchesOf_issue_self (hbatch : batch.orderId = order.id) (S : Table stampSchema) :
    (⟨B, S⟩ : Stock).batchesOf order.id = [f batch] := by
  have hkeeps := Stock.keepsBatch_ite hf fun b => b.id = batch.id
  have hfilter : base.filter (fun b => b.orderId = order.id) = [batch] := by
    rcases hbase with ⟨hold, rfl⟩ | ⟨hnone, -, rfl⟩
    · exact hold
    · rw [List.filter_append, hnone, List.nil_append, List.filter_cons, List.filter_nil]
      simp [hbatch]
  change B.rows.filter _ = _
  rw [hB, setBatch, List.filter_map]
  have hsame : base.filter ((fun b : StampBatch => decide (b.orderId = order.id)) ∘
      fun b => if b.id = batch.id then f b else b) = base.filter fun b => b.orderId = order.id := by
    refine List.filter_congr fun b _ => ?_
    simp only [Function.comp_apply, hkeeps.orderId]
  rw [hsame, hfilter, List.map_cons, List.map_nil, if_pos rfl]

omit h horder hstatus in
include hf hB in
/-- After a chunk every other order has the batches it had. -/
theorem Stocktake.batchesOf_issue_other (hbatch : batch.orderId = order.id) (S : Table stampSchema)
    {orderId : Uuid} (hother : orderId ≠ order.id) :
    (⟨B, S⟩ : Stock).batchesOf orderId = db.stock.batchesOf orderId := by
  have hkeeps := Stock.keepsBatch_ite hf fun b => b.id = batch.id
  have hid : ∀ b ∈ db.stock.batchesOf orderId, b.id ≠ batch.id := by
    intro b hb hid
    obtain ⟨hmem, horder'⟩ := List.mem_filter.mp hb
    rcases hbase with ⟨hold, -⟩ | ⟨-, -, hnew⟩
    · have hsame := db.stock.batch_eq_of_id hmem (mem_of_filter_eq_singleton hold).1 hid
      rw [hsame, decide_eq_true_eq] at horder'
      exact hother (horder'.symm.trans hbatch)
    · exact Stocktake.batch_ne_of_new hf hB hnew b hmem hid
  have hfilter : base.filter (fun b => b.orderId = orderId) = db.stock.batchesOf orderId := by
    rcases hbase with ⟨-, rfl⟩ | ⟨-, -, rfl⟩
    · rfl
    · rw [List.filter_append, List.filter_cons, List.filter_nil]
      simp [hbatch, Ne.symm hother, Stock.batchesOf, Db.stock]
  change B.rows.filter _ = _
  rw [hB, setBatch, List.filter_map]
  have hsame : base.filter ((fun b : StampBatch => decide (b.orderId = orderId)) ∘
      fun b => if b.id = batch.id then f b else b) = base.filter fun b => b.orderId = orderId := by
    refine List.filter_congr fun b _ => ?_
    simp only [Function.comp_apply, hkeeps.orderId]
  rw [hsame, hfilter]
  calc (db.stock.batchesOf orderId).map (fun b => if b.id = batch.id then f b else b)
      = (db.stock.batchesOf orderId).map fun b => b := List.map_congr_left fun b hb => if_neg (hid b hb)
    _ = db.stock.batchesOf orderId := List.map_id' _

end Issue

/-- After a chunk an order is another one as it was, or the chunk's with its new status. -/
theorem mem_issuedOrders {db : Db} {order o : Order} {complete : Bool} {now : Time} {rows : List Order}
    (horder : order ∈ db.orders.rows)
    (hrows : rows = if issuedStatus order.status complete = order.status then db.orders.rows
      else moveOrder order.id (issuedStatus order.status complete) now db.orders.rows) (ho : o ∈ rows) :
    (o ∈ db.orders.rows ∧ o.id ≠ order.id) ∨
      (o.id = order.id ∧ o.quantity = order.quantity ∧ o.status = issuedStatus order.status complete) := by
  rw [hrows] at ho
  split at ho
  · rename_i hsame
    by_cases hid : o.id = order.id
    · obtain rfl : o = order := order_eq_of_id db ho horder hid
      exact .inr ⟨rfl, rfl, hsame.symm⟩
    · exact .inl ⟨ho, hid⟩
  · obtain ⟨old, hold, ⟨hid, rfl⟩ | ⟨hid, rfl⟩⟩ := mem_moveOrder.mp ho
    · obtain rfl : old = order := order_eq_of_id db hold horder hid
      exact .inr ⟨rfl, rfl, rfl⟩
    · exact .inl ⟨hold, hid⟩

/-- A chunk keeps the identifiers of the orders. -/
theorem ids_issuedOrders {order : Order} {complete : Bool} {now : Time} {rows old : List Order}
    (hrows : rows = if issuedStatus order.status complete = order.status then old
      else moveOrder order.id (issuedStatus order.status complete) now old) :
    rows.map Order.id = old.map Order.id := by
  rw [hrows]
  split
  · rfl
  · exact ids_moveOrder _ _ _ _

/-- A chunk prints into the batch of its order and leaves every other order alone. -/
theorem Stocktake.issued {settings : Settings} {draws : Draws} {db db' : Db} (h : Stocktake db) {orderId : Uuid}
    {chunkSize : ℤ} {now : Time} (heffect : IssueEffect settings draws orderId chunkSize now db db') : Stocktake db' := by
  obtain ⟨order, batch, base, added, complete, f, O, T, B, C, S, M, A, horder, hid, hstatus, hbatch, hbase,
    hadded, hcount, hcomplete, hf, hO, hT, hB, hS⟩ := heffect
  obtain ⟨hrequested, hstamps, hle, hfull⟩ := h.batch_of_issue horder hstatus hbase
  rw [h.stampCount_eq horder hstatus hbase hf hB hbatch, hrequested] at hcount hcomplete
  have htotal : ((db.stock.stampsOf order.id).length : ℤ) + added.length ≤ order.quantity := by
    rcases hcount with ⟨-, rfl⟩ | ⟨-, hmost⟩
    · simpa using hle
    · exact hmost
  have hkeeps := Stock.keepsBatch_ite hf fun b => b.id = batch.id
  have hsub : db.stampBatches.rows ⊆ base := by
    rcases hbase with ⟨-, rfl⟩ | ⟨-, -, rfl⟩
    · exact List.Subset.refl _
    · exact List.subset_append_left _ _
  have hmem : batch ∈ base := by
    rcases hbase with ⟨hold, rfl⟩ | ⟨-, -, rfl⟩
    · exact (mem_of_filter_eq_singleton hold).1
    · exact List.mem_append_right _ (List.mem_singleton.mpr rfl)
  have himage : ∀ b ∈ base, (if b.id = batch.id then f b else b) ∈ B.rows := by
    intro b hb
    rw [hB]
    exact List.mem_map_of_mem hb
  constructor
  · intro b hb
    change b ∈ B.rows at hb
    change b.orderId ∈ O.rows.map Order.id
    rw [ids_issuedOrders hO]
    rw [hB, setBatch, List.mem_map] at hb
    obtain ⟨old, hold, rfl⟩ := hb
    rw [hkeeps.orderId]
    have hcases : old ∈ db.stampBatches.rows ∨ old = batch := by
      rcases hbase with ⟨-, rfl⟩ | ⟨-, -, rfl⟩
      · exact .inl hold
      · rwa [List.mem_append, List.mem_singleton] at hold
    rcases hcases with hold | rfl
    · exact h.batches old hold
    · rw [hbatch]
      exact List.mem_map_of_mem horder
  · intro s hs
    change s ∈ S.rows at hs
    rw [hS, List.mem_append] at hs
    rcases hs with hs | hs
    · obtain ⟨b, hb, hbid, hborder⟩ := h.stamps s hs
      exact ⟨_, himage b (hsub hb), (hkeeps.id b).trans hbid, (hkeeps.orderId b).trans hborder⟩
    · obtain ⟨hsorder, hsbatch, -⟩ := hadded s hs
      exact ⟨_, himage batch hmem, (hkeeps.id batch).trans hsbatch.symm,
        (hkeeps.orderId batch).trans (hbatch.trans hsorder.symm)⟩
  · intro o ho
    change o ∈ O.rows at ho
    change (⟨B, S⟩ : Stock).Stocked o
    rcases mem_issuedOrders horder hO ho with ⟨hold, hother⟩ | ⟨hoid, hquantity, hostatus⟩
    · refine (h.stocked o hold).congr (Stocktake.batchesOf_issue_other hbase hf hB hbatch S hother) ?_
      have hnone : added.filter (fun s => s.orderId = o.id) = [] := by
        refine List.filter_eq_nil_iff.mpr fun s hs => ?_
        rw [(hadded s hs).1]
        simpa using Ne.symm hother
      change S.rows.filter _ = db.stamps.rows.filter _
      rw [hS, List.filter_append, hnone, List.append_nil]
    · have hall : added.filter (fun s => s.orderId = order.id) = added :=
        List.filter_eq_self.mpr fun s hs => decide_eq_true (hadded s hs).1
      have hnew : (⟨B, S⟩ : Stock).stampsOf o.id = db.stock.stampsOf order.id ++ added := by
        change S.rows.filter _ = db.stamps.rows.filter _ ++ added
        rw [hoid, hS, List.filter_append, hall]
      have hinBatch : (⟨B, S⟩ : Stock).InBatch o (f batch) := by
        refine ⟨?_, ?_, ?_⟩
        · rw [hoid]
          exact Stocktake.batchesOf_issue_self hbase hf hB hbatch S
        · rw [hf.requestedCount, hrequested, hquantity]
        · intro s hs
          rw [hnew, List.mem_append] at hs
          rw [hf.id]
          rcases hs with hs | hs
          · exact hstamps s hs
          · exact (hadded s hs).2.1
      unfold Stock.Stocked
      rw [hostatus, issuedStatus, hnew, List.length_append, hquantity]
      -- A complete chunk has reached the quantity exactly; an issued order was complete before.
      split_ifs with hdone
      · refine ⟨_, hinBatch, ?_⟩
        push_cast
        rcases hdone with hdone | hdone
        · have := hfull hdone
          omega
        · have := hcomplete.mp hdone
          omega
      · refine ⟨_, hinBatch, ?_⟩
        push_cast
        have hopen : ¬ complete = true := fun hc => hdone (.inr hc)
        rw [hcomplete] at hopen
        omega

/-- A decision moves an order between statuses without stock. -/
theorem Stocktake.decided {db db' : Db} (h : Stocktake db) {draws : Draws} {order : Order} {actor : Actor}
    {command : ApprovalCommand} {now : Time} {P : Table approvalSchema} (horder : order ∈ db.orders.rows)
    (hstatus : order.status = .awaitingApproval)
    (heffect : DecisionEffect draws order actor command now (Tables.approvals.set P db) db') :
    Stocktake db' := by
  have hold : order.status.beforeIssue := by
    rw [hstatus]
    exact ⟨by decide, by decide⟩
  cases heffect with
  | rejected O T hdecision hO hT => exact h.move horder hold ⟨by decide, by decide⟩ hO rfl rfl
  | recorded hdecision hopen => exact h.frame rfl rfl
  | opened O T I M hdecision hfull hO hT hI => exact h.move horder hold ⟨by decide, by decide⟩ hO rfl rfl

/-- An ingestion moves at most an order that awaits its payment. -/
theorem Stocktake.ingested {settings : Settings} {db db' : Db} (h : Stocktake db) {draws : Draws}
    {advice : RemittanceAdvice} {now : Time} (heffect : IngestEffect settings draws advice now db db') : Stocktake db' := by
  cases heffect with
  | replayed receipt hmem hreference => exact h
  | unknown payloadHash R A hR => exact h.frame rfl rfl
  | mismatched intent payloadHash R J E M A hintent hstatus hR hJ hE hsupported => exact h.frame rfl rfl
  | settled intent order payloadHash R O T I J E M A hintent hstatus horder hid hawaiting hR hO hT hI hJ hE
      hsupported =>
    refine h.move horder ?_ ⟨by decide, by decide⟩ hO rfl rfl
    rw [hawaiting]
    exact ⟨by decide, by decide⟩

/-- Every transaction keeps the stocktake. -/
theorem Stocktake.step (settings : Settings) (s : Platform) (e : Event) (h : Stocktake s.db) :
    Stocktake (TaxStamp.step settings s e).db := by
  obtain hchange := step_change settings s e
  generalize (TaxStamp.step settings s e).db = db' at hchange ⊢
  cases hchange with
  | sameCore e db' hsame =>
    refine h.frame hsame.orders ?_
    rw [Db.stock, hsame.stampBatches, hsame.stamps]
    rfl
  | submitted compliance draws actor command now key draft compliant O T A hdraft hfresh hO hT =>
    exact h.submitted hfresh hO rfl rfl
  | decided draws actor command now key order P db₁ A horder hid hstatus hrole hsubmitter hfirst hP heffect =>
    exact (h.decided horder hstatus heffect).frame rfl rfl
  | cancelled draws actor orderId reason now order O T A horder hid hmay hlegal hO hT =>
    refine h.move horder ?_ ⟨by decide, by decide⟩ hO rfl rfl
    rcases cancelled_mem_orderTransitions.mp hlegal with hs | hs | hs | hs | hs | hs <;> rw [hs] <;>
      exact ⟨by decide, by decide⟩
  | ingested draws advice now db' heffect => exact h.ingested heffect
  | issued draws orderId chunkSize now db' heffect => exact h.issued heffect
  | inspected draws actor command now db' heffect =>
    obtain ⟨batch, inspection, g, N, S, V, B, A, hbatch, hstatus, hinspection, hfirst, hN, hg, hactive, hS, hB⟩ :=
      heffect
    have hfail : KeepsBatch fun b => { b with status := .inspectionFailed } :=
      ⟨fun _ => rfl, fun _ => rfl, fun _ => rfl⟩
    exact h.relabel (Stock.keepsBatch_ite hfail fun b => inspection.accepted = false ∧ b.id = batch.id) hg rfl hB hS
  | activated index draws actor now key a db' ha heffect =>
    obtain ⟨g, S, V, A, hg, hactive, hS⟩ := heffect
    exact h.relabel .refl hg rfl (List.map_id' _).symm hS
  | retired e db' heffect =>
    obtain ⟨g, S, V, A, hg, hactive, hS⟩ := heffect
    exact h.relabel .refl hg rfl (List.map_id' _).symm hS

/-- The stocktake holds after every run. -/
theorem Stocktake.run (settings : Settings) (companies : Table companySchema) (tariffs : Table tariffSchema)
    (events : List Event) :
    Stocktake (Lib.run (TaxStamp.step settings) (Platform.initial companies tariffs) events).db :=
  run_invariant (fun s => Stocktake s.db) (fun s e h => h.step settings s e) _
    (Stocktake.initial companies tariffs) events

/-- An order with stamps is in issuance, and its stamps are within its quantity. -/
theorem Stock.Stocked.of_stamped {t : Stock} {o : Order} (h : t.Stocked o) (hstamped : t.stampsOf o.id ≠ []) :
    (o.status = .issuing ∨ o.status = .issued) ∧ (∃ b, t.InBatch o b) ∧
      ((t.stampsOf o.id).length : ℤ) ≤ o.quantity ∧
      (((t.stampsOf o.id).length : ℤ) = o.quantity ↔ o.status = .issued) := by
  by_cases hbefore : o.status.beforeIssue
  · exact absurd ((Stock.stocked_beforeIssue hbefore).mp h).stamps hstamped
  · have hstatus : o.status = .issuing ∨ o.status = .issued := by
      by_contra hne
      rw [not_or] at hne
      exact hbefore hne
    refine ⟨hstatus, ?_⟩
    unfold Stock.Stocked at h
    rcases hstatus with hs | hs <;> rw [hs] at h ⊢ <;> obtain ⟨b, hb, hlength⟩ := h
    · refine ⟨⟨b, hb⟩, hlength.le, fun heq => absurd heq hlength.ne, fun hne => ?_⟩
      contradiction
    · exact ⟨⟨b, hb⟩, hlength.le, fun _ => rfl, fun _ => hlength⟩

/-- No stamp without exact payment: after every run, an order that owns a stamp is in issuance, has one
settled intent with one exact receipt and one settlement journal of its own amounts, and has its stamps in
one batch, as many as it ordered exactly when it is issued. -/
theorem stamped_order_paid_exactly (settings : Settings) (companies : Table companySchema)
    (tariffs : Table tariffSchema) (events : List Event) :
    let db := (Lib.run (step settings) (Platform.initial companies tariffs) events).db
    ∀ o ∈ db.orders.rows, db.stock.stampsOf o.id ≠ [] →
      (o.status = .issuing ∨ o.status = .issued) ∧
        (∃ i r j, db.accounts.Settled o i r j) ∧
        (∃ b, db.stock.InBatch o b) ∧
        ((db.stock.stampsOf o.id).length : ℤ) ≤ o.quantity ∧
        (((db.stock.stampsOf o.id).length : ℤ) = o.quantity ↔ o.status = .issued) := by
  intro db o ho hstamped
  have hdossier := (Reconciled.run settings companies tariffs events).dossier o ho
  have hstocked := (Stocktake.run settings companies tariffs events).stocked o ho
  obtain ⟨hstatus, hbatch, hmost, hexact⟩ := hstocked.of_stamped hstamped
  refine ⟨hstatus, ?_, hbatch, hmost, hexact⟩
  unfold Accounts.Dossier at hdossier
  rcases hstatus with hs | hs <;> rw [hs] at hdossier <;> exact hdossier

/-- The sample order owns a stamp and has been settled. -/
theorem stamped_order_paid_exactly_sample :
    ∃ o ∈ (Lib.run (step sampleSettings) samplePlatform sampleIssued).db.orders.rows,
      (Lib.run (step sampleSettings) samplePlatform sampleIssued).db.stock.stampsOf o.id ≠ [] ∧
        ∃ i r j, (Lib.run (step sampleSettings) samplePlatform sampleIssued).db.accounts.Settled o i r j := by
  have hpaid := stamped_order_paid_exactly sampleSettings sampleCompanies sampleTariffs sampleIssued
  have hany : ∃ o ∈ (Lib.run (step sampleSettings) samplePlatform sampleIssued).db.orders.rows,
      (Lib.run (step sampleSettings) samplePlatform sampleIssued).db.stock.stampsOf o.id ≠ [] := by
    decide +kernel
  generalize (Lib.run (step sampleSettings) samplePlatform sampleIssued).db = db at hpaid hany ⊢
  obtain ⟨o, ho, hstamped⟩ := hany
  exact ⟨o, ho, hstamped, (hpaid o ho hstamped).2.1⟩

end TaxStamp
