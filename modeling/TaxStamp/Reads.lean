import TaxStamp.System

/-!
# Reading endpoints

The documents of an order, a stamp and a batch. Each endpoint finds its row for any caller and then refuses a requester
of another company; the listing filters by company instead.
-/

namespace TaxStamp

open Lib

/-- Refuse a requester of another company; the other roles read across companies. -/
def Actor.requireOwner (actor : Actor) (companyId : Uuid) : Session Unit :=
  if actor.role = .requester then actor.requireCompany companyId else return ()

/-- A requester passes exactly for its own company. -/
theorem Actor.requireOwner_ok {actor : Actor} {companyId : Uuid} {u : Unit} {db db' : Db} :
    actor.requireOwner companyId db = .ok (u, db') ↔
      (actor.role = .requester → actor.companyId = some companyId) ∧ db = db' := by
  unfold Actor.requireOwner
  split
  · rename_i hrole
    simp [hrole]
  · rename_i hrole
    simp [hrole]

/-- The single row that a statement may find is the first of those that meet its condition. -/
theorem scalarOneOrNone_ok {α : Type} {S : Schema α} {F : Field Db (Table S)} {p : α → Bool} {found : Option α}
    {db db' : Db} (h : scalarOneOrNone F p db = .ok (found, db')) :
    found = ((F.get db).rows.filter p).head? ∧ db = db' := by
  cases found with
  | none =>
    obtain ⟨hnone, hdb⟩ := selectOne_none.mp h
    exact ⟨by rw [hnone]; rfl, hdb⟩
  | some row =>
    obtain ⟨hone, hdb⟩ := selectOne_some.mp h
    exact ⟨by rw [hone]; rfl, hdb⟩

/-! ### Orders -/

/-- The document of an order. -/
def orderDocument (order : Order) : JsonObject :=
  [("id", .str order.id.str),
    ("order_ref", .str order.orderRef),
    ("company_id", .str order.companyId.str),
    ("product_category", .str order.productCategory),
    ("quantity", .int order.quantity),
    ("unit_price_minor", .int order.unitPriceMinor),
    ("subtotal_minor", .int order.subtotalMinor),
    ("vat_bps", .int order.vatBps),
    ("vat_minor", .int order.vatMinor),
    ("total_minor", .int order.totalMinor),
    ("currency", .str order.currency),
    ("status", .str order.status.value),
    ("risk_tier", .str order.riskTier.value),
    ("compliance", order.complianceEvidence),
    ("created_at", .str (Time.isoformat order.createdAt)),
    ("updated_at", .str (Time.isoformat order.updatedAt))]

/-- An approval as the document of its order shows it. -/
def approvalDocument (approval : Approval) : Json :=
  .obj [("level", .str approval.level.value),
    ("decision", .str approval.decision.value),
    ("reason", .str approval.reason),
    ("created_at", .str (Time.isoformat approval.createdAt))]

/-- A payment intent as the document of its order shows it. -/
def paymentDocument (intent : PaymentIntent) : Json :=
  .obj [("reference", .str intent.reference),
    ("amount_minor", .int intent.amountMinor),
    ("currency", .str intent.currency),
    ("status", .str intent.status.value)]

/-- One order with its approvals and its payment. -/
def getOrder (actor : Actor) (orderId : Uuid) : Session JsonObject := do
  let order ← fetch Tables.orders (fun o => o.id = orderId) (.notFound "order not found")
  actor.requireOwner order.companyId
  let approvals ← selectAll Tables.approvals fun a => a.orderId = order.id
  let intent ← scalarOneOrNone Tables.paymentIntents fun i => i.orderId = order.id
  return orderDocument order ++
    [("approvals", .arr (approvals.map approvalDocument)), ("payment", (intent.map paymentDocument).getD .null)]

/-- The newest orders, those of its company for a requester. The offset must fit a `BIGINT`. -/
def listOrders (actor : Actor) (limit offset : ℤ) : Session JsonObject := do
  let boundedLimit := max 1 (min limit 200)
  let skipped := max offset 0
  Tx.require (actor.role = .requester → actor.companyId ≠ none)
    (.notFound "no company is associated with this credential")
  Tx.require (bigint skipped) .dataError
  let rows ← selectOrdered Tables.orders (fun o => actor.role ≠ .requester || actor.companyId = some o.companyId)
    (fun a b => b.createdAt ≤ a.createdAt) (skipped + boundedLimit).toNat
  return [("orders", .arr ((rows.drop skipped.toNat).map fun o => .obj (orderDocument o))),
    ("limit", .int boundedLimit)]

/-- A requester reads an order of its own company, with the approvals and the payment of that order. -/
theorem getOrder_ok {actor : Actor} {orderId : Uuid} {document : JsonObject} {db db' : Db}
    (h : getOrder actor orderId db = .ok (document, db')) :
    ∃ order, db.orders.rows.filter (fun o => o.id = orderId) = [order] ∧
      (actor.role = .requester → actor.companyId = some order.companyId) ∧
      document = orderDocument order ++
        [("approvals", .arr ((db.approvals.rows.filter fun a => a.orderId = order.id).map approvalDocument)),
          ("payment", ((db.paymentIntents.rows.filter fun i => i.orderId = order.id).head?.map paymentDocument).getD
            .null)] ∧
      db = db' := by
  simp only [getOrder, Tx.bind_ok, fetch_ok, Actor.requireOwner_ok, selectAll_ok, Tx.pure_ok] at h
  obtain ⟨order, db₁, ⟨horder, rfl⟩, -, db₂, ⟨howner, rfl⟩, approvals, db₃, ⟨rfl, rfl⟩, intent, db₄, hintent, rfl,
    rfl⟩ := h
  obtain ⟨rfl, rfl⟩ := scalarOneOrNone_ok hintent
  exact ⟨order, horder, howner, rfl, rfl⟩

/-- A listing shows a page of the orders that the caller may read. -/
theorem listOrders_ok {actor : Actor} {limit offset : ℤ} {document : JsonObject} {db db' : Db}
    (h : listOrders actor limit offset db = .ok (document, db')) :
    document = [("orders", .arr (((((db.orders.rows.filter fun o =>
        actor.role ≠ .requester || actor.companyId = some o.companyId).insertionSort fun a b =>
          decide (b.createdAt ≤ a.createdAt) = true).take (max offset 0 + max 1 (min limit 200)).toNat).drop
            (max offset 0).toNat).map fun o => .obj (orderDocument o))),
        ("limit", .int (max 1 (min limit 200)))] ∧ db = db' := by
  simp only [listOrders, Tx.bind_ok, Tx.require_ok, selectOrdered_ok, Tx.pure_ok] at h
  obtain ⟨-, db₁, ⟨-, rfl⟩, -, db₂, ⟨-, rfl⟩, rows, db₃, ⟨rfl, rfl⟩, rfl, rfl⟩ := h
  exact ⟨rfl, rfl⟩

/-! ### Stamps and batches -/

/-- The stamp with a serial. No stored text holds a NUL, and the driver refuses one. -/
def getStamp (serial : String) (actor : Actor) : Session Stamp := do
  Tx.require ('\x00' ∉ serial.toList) .dataError
  let stamp ← fetch Tables.stamps (fun s => s.serial = serial) (.notFound "stamp not found")
  actor.requireOwner stamp.companyId
  return stamp

/-- The document of a stamp. -/
def stampDocument (stamp : Stamp) : JsonObject :=
  [("serial", .str stamp.serial),
    ("status", .str stamp.status.value),
    ("product_category", .str stamp.productCategory),
    ("order_id", .str stamp.orderId.str),
    ("batch_id", .str stamp.batchId.str),
    ("issued_at", .str (Time.isoformat stamp.issuedAt)),
    ("activated_at", (stamp.activatedAt.map fun t => .str (Time.isoformat t)).getD .null),
    ("expires_at", .str (Time.isoformat stamp.expiresAt))]

/-- An inspection as the document of its batch shows it. -/
def inspectionDocument (inspection : Inspection) : Json :=
  .obj [("accepted", .bool inspection.accepted),
    ("sample_size", .int inspection.sampleSize),
    ("accept_number", .int inspection.acceptNumber),
    ("reject_number", .int inspection.rejectNumber),
    ("defects_found", .int inspection.defectsFound),
    ("created_at", .str (Time.isoformat inspection.createdAt))]

/-- The document of a batch and its inspection. -/
def batchDocument (batch : StampBatch) (inspection : Option Inspection) : JsonObject :=
  [("id", .str batch.id.str),
    ("order_id", .str batch.orderId.str),
    ("requested_count", .int batch.requestedCount),
    ("issued_count", .int batch.issuedCount),
    ("status", .str batch.status.value),
    ("created_at", .str (Time.isoformat batch.createdAt)),
    ("completed_at", (batch.completedAt.map fun t => .str (Time.isoformat t)).getD .null),
    ("inspection", (inspection.map inspectionDocument).getD .null)]

/-- One batch, joined with its order, and its inspection. -/
def getBatch (actor : Actor) (batchId : Uuid) : Session JsonObject := do
  actor.requireRole [.operator, .admin, .auditor, .requester]
  let batch ← fetch Tables.stampBatches (fun b => b.id = batchId) (.notFound "batch not found")
  let order ← fetch Tables.orders (fun o => o.id = batch.orderId) (.notFound "batch not found")
  actor.requireOwner order.companyId
  let inspection ← scalarOneOrNone Tables.inspections fun i => i.batchId = batch.id
  return batchDocument batch inspection

/-- A requester reads a stamp of its own company. -/
theorem getStamp_ok {actor : Actor} {serial : String} {stamp : Stamp} {db db' : Db}
    (h : getStamp serial actor db = .ok (stamp, db')) :
    db.stamps.rows.filter (fun s => s.serial = serial) = [stamp] ∧
      (actor.role = .requester → actor.companyId = some stamp.companyId) ∧ db = db' := by
  simp only [getStamp, Tx.bind_ok, Tx.require_ok, fetch_ok, Actor.requireOwner_ok, Tx.pure_ok] at h
  obtain ⟨-, db₁, ⟨-, rfl⟩, found, db₂, ⟨hfound, rfl⟩, -, db₃, ⟨howner, rfl⟩, rfl, rfl⟩ := h
  exact ⟨hfound, howner, rfl⟩

/-- A requester reads a batch of an order of its own company, with the inspection of that batch. -/
theorem getBatch_ok {actor : Actor} {batchId : Uuid} {document : JsonObject} {db db' : Db}
    (h : getBatch actor batchId db = .ok (document, db')) :
    ∃ batch order, db.stampBatches.rows.filter (fun b => b.id = batchId) = [batch] ∧
      db.orders.rows.filter (fun o => o.id = batch.orderId) = [order] ∧
      (actor.role = .requester → actor.companyId = some order.companyId) ∧
      document = batchDocument batch (db.inspections.rows.filter fun i => i.batchId = batch.id).head? ∧ db = db' := by
  simp only [getBatch, Tx.bind_ok, Actor.requireRole_ok, fetch_ok, Actor.requireOwner_ok, Tx.pure_ok] at h
  obtain ⟨-, db₁, ⟨-, rfl⟩, batch, db₂, ⟨hbatch, rfl⟩, order, db₃, ⟨horder, rfl⟩, -, db₄, ⟨howner, rfl⟩, inspection,
    db₅, hinspection, rfl, rfl⟩ := h
  obtain ⟨rfl, rfl⟩ := scalarOneOrNone_ok hinspection
  exact ⟨batch, order, hbatch, horder, howner, rfl, rfl⟩

end TaxStamp
