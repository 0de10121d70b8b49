import TaxStamp.Orders
import TaxStamp.Serials

/-!
# Stamp issuance

Issuance is chunked and resumable: every chunk locks the order and its batch, counts the
stamps that exist, claims a block of serials and commits its own progress. The chunk that
reaches the requested count completes the batch and asks for its anchoring.
-/

namespace TaxStamp

open Lib

/-- The actor of the issuance. -/
def issuer : AuditActor := ⟨none, "system:issuer", "operator", none⟩

/-- The validity of a stamp. -/
def stampValidityDays : ℤ := 730

/-- The progress of a batch. -/
structure IssuanceProgress where
  batchId : Uuid
  requested : ℤ
  issued : ℤ
  completed : Bool
  deriving DecidableEq, Repr

/-- The leaf hash of a Merkle tree. -/
def merkleLeaf (crypto : Crypto) (leaf : String) : Bytes := crypto.sha256 (0 :: utf8 leaf)

/-- One level of a Merkle tree: hash the pairs and carry an odd last node. -/
def merkleLevel (crypto : Crypto) : List Bytes → List Bytes
  | a :: b :: rest => crypto.sha256 (1 :: (a ++ b)) :: merkleLevel crypto rest
  | level => level

/-- Repeat the levels; one repetition per leaf is more than enough. -/
def merkleLoop (crypto : Crypto) : ℕ → List Bytes → List Bytes
  | 0, level => level
  | fuel + 1, level => if 1 < level.length then merkleLoop crypto fuel (merkleLevel crypto level) else level

/-- The Merkle root of a list of texts. -/
def merkleRoot (crypto : Crypto) (leaves : List String) : Except Fault String :=
  match merkleLoop crypto leaves.length (leaves.map (merkleLeaf crypto)) with
  | [] => .error (.valueError "merkle root requires at least one leaf")
  | root :: _ => .ok (hexText root)

/-- Create the serial counter of a category and year unless there is one. -/
def ensureCounter (productCategory : String) (year : ℤ) : Session Unit := do
  let existing ← selectAll Tables.serialCounters fun c => c.productCategory = productCategory && c.year = year
  if existing = [] then
    addRow Tables.serialCounters ⟨productCategory, year, 1⟩
  else
    return ()

/-- Claim consecutive serials and return the first sequence number. -/
def allocateSerialBlock (productCategory : String) (year count : ℤ) : Session ℤ := do
  Tx.require (0 < count) (.illegalState "serial block size must be positive")
  ensureCounter productCategory year
  let counter ← fetch Tables.serialCounters (fun c => c.productCategory = productCategory && c.year = year)
    .noResultFound
  setRows Tables.serialCounters (fun c => c.productCategory = productCategory && c.year = year) fun c =>
    { c with nextValue := c.nextValue + count }
  return counter.nextValue

/-- The locked batch of an order, created when there is none. -/
def ensureBatch (draws : Draws) (order : Order) (now : Time) : Session StampBatch := do
  let existing ← scalarOneOrNone Tables.stampBatches fun b => b.orderId = order.id
  match existing with
  | some batch => return batch
  | none =>
    let batch : StampBatch :=
      { id := draws.uuid 0
        orderId := order.id
        requestedCount := order.quantity
        issuedCount := 0
        status := .pending
        createdAt := now
        completedAt := none }
    addRow Tables.stampBatches batch
    return batch

/-- The stamp printed with a serial. -/
def newStamp (settings : Settings) (stampId : Uuid) (order : Order) (batchId : Uuid) (serial : String)
    (now expiresAt : Time) : Stamp where
  id := stampId
  serial := serial
  batchId := batchId
  orderId := order.id
  companyId := order.companyId
  productCategory := order.productCategory
  status := .issued
  secureCodeHash := hashSecureCode settings.crypto serial
    (deriveSecureCode settings.crypto serial settings.deviceHmacSecret) settings.deviceHmacSecret
  issuedAt := now
  activatedAt := none
  voidedAt := none
  expiresAt := expiresAt

/-- The stamps of a block of serials, from an offset on. -/
def newStamps (settings : Settings) (draws : Draws) (order : Order) (batchId : Uuid) (start : ℤ)
    (now expiresAt : Time) : ℕ → ℕ → Except Fault (List Stamp)
  | 0, _ => .ok []
  | count + 1, offset => do
    let serial ← formatSerial order.productCategory (Time.year now) (start + offset)
    let rest ← newStamps settings draws order batchId start now expiresAt count (offset + 1)
    return newStamp settings (draws.uuid (3 + offset)) order batchId serial now expiresAt :: rest

/-- Move a paid order and its batch to issuing. -/
def startIssuance (order : Order) (batch : StampBatch) (now : Time) : Session (Order × StampBatch) :=
  if order.status = .paid then do
    let order ← transition order .issuing none "issuance started" now
    setRows Tables.stampBatches (fun b => b.id = batch.id) fun b => { b with status := .issuing }
    return (order, { batch with status := .issuing })
  else
    return (order, batch)

/-- Mark a batch as issued unless it is. -/
def finishBatch (batch : StampBatch) (issued : ℤ) (now : Time) : Session Unit :=
  if batch.status ≠ .issued then
    setRows Tables.stampBatches (fun b => b.id = batch.id) fun b =>
      { b with status := .issued, issuedCount := issued, completedAt := some now }
  else
    return ()

/-- Move an issuing order to issued and ask for the anchoring of its batch. -/
def finishOrder (settings : Settings) (draws : Draws) (order : Order) (batch : StampBatch) (now : Time) :
    Session Unit :=
  if order.status = .issuing then do
    let _ ← transition order .issued none "issuance complete" now
    let stamps ← selectAll Tables.stamps fun s => s.batchId = batch.id
    let serials := (stamps.map Stamp.serial).insertionSort fun a b => codePointsLe a.toList b.toList = true
    let root ← Tx.lift (merkleRoot settings.crypto serials)
    let _ ← enqueue (.pending (draws.uuid 1) "stamp_batch" batch.id "batch.anchor_requested"
      ("batch.anchor:" ++ batch.id.str)
      [("batch_id", .str batch.id.str),
        ("order_id", .str order.id.str),
        ("stamp_count", .int serials.length),
        ("merkle_root", .str root)] now)
    return ()
  else
    return ()

/-- Complete a batch whose requested count is reached. -/
def completeBatch (settings : Settings) (draws : Draws) (order : Order) (batch : StampBatch) (issued : ℤ)
    (now : Time) : Session IssuanceProgress := do
  finishBatch batch issued now
  finishOrder settings draws order batch now
  return ⟨batch.id, batch.requestedCount, issued, true⟩

/-- Print the next stamps of a batch that is not complete. -/
def printChunk (settings : Settings) (draws : Draws) (order : Order) (batch : StampBatch)
    (issuedNow chunkSize : ℤ) (now : Time) : Session IssuanceProgress := do
  let count := min chunkSize (batch.requestedCount - issuedNow)
  let start ← allocateSerialBlock order.productCategory (Time.year now) count
  let expiresAt ← Tx.lift (Time.add now (days stampValidityDays))
  let rows ← Tx.lift (newStamps settings draws order batch.id start now expiresAt count.toNat 0)
  addRows Tables.stamps rows
  setRows Tables.stampBatches (fun b => b.id = batch.id) fun b => { b with issuedCount := issuedNow + count }
  let batch := { batch with issuedCount := issuedNow + count }
  if batch.requestedCount ≤ batch.issuedCount then
    completeBatch settings draws order batch batch.issuedCount now
  else
    return ⟨batch.id, batch.requestedCount, batch.issuedCount, false⟩

/-- Issue at most `chunkSize` stamps of an order. -/
def issueChunk (settings : Settings) (draws : Draws) (orderId : Uuid) (chunkSize : ℤ) (now : Time) :
    Session IssuanceProgress := do
  let order ← fetch Tables.orders (fun o => o.id = orderId) (.notFound "order not found")
  Tx.require (order.status = .paid ∨ order.status = .issuing ∨ order.status = .issued)
    (.illegalState s!"order in status {order.status.value} is not payable for issuance")
  let batch ← ensureBatch draws order now
  let (order, batch) ← startIssuance order batch now
  let issuedNow : ℤ ← Tx.read fun db => (db.stamps.rows.countP fun s => s.batchId = batch.id : ℕ)
  if batch.requestedCount - issuedNow ≤ 0 then
    completeBatch settings draws order batch issuedNow now
  else
    printChunk settings draws order batch issuedNow chunkSize now

/-- Record the completion of a batch in the audit trail. -/
def auditProgress (settings : Settings) (draws : Draws) (progress : IssuanceProgress) (now : Time) :
    Session Unit :=
  if progress.completed then do
    let _ ← recordAuditEvent settings draws (draws.uuid 2) issuer
      { action := "batch.issued"
        targetType := "stamp_batch"
        targetId := progress.batchId.str
        outcome := .success
        afterState := some [("issued", .int progress.issued), ("requested", .int progress.requested)] }
      now
    return ()
  else
    return ()

/-- One transaction of `issue_order`: a chunk, audited when it completes the batch. -/
def issueOrderChunk (settings : Settings) (draws : Draws) (orderId : Uuid) (chunkSize : ℤ) (now : Time) :
    Session IssuanceProgress := do
  let progress ← issueChunk settings draws orderId chunkSize now
  auditProgress settings draws progress now
  return progress

/-- Rewrite the batch with an identifier. -/
def setBatch (batchId : Uuid) (f : StampBatch → StampBatch) (rows : List StampBatch) : List StampBatch :=
  rows.map fun b => if b.id = batchId then f b else b

/-- Rewriting a batch twice is rewriting it by the composition. -/
theorem setBatch_setBatch {batchId : Uuid} {f g : StampBatch → StampBatch} (hf : ∀ b, (f b).id = b.id)
    (rows : List StampBatch) : setBatch batchId g (setBatch batchId f rows) = setBatch batchId (g ∘ f) rows := by
  simp only [setBatch, List.map_map]
  refine List.map_congr_left fun b _ => ?_
  by_cases hb : b.id = batchId <;> simp [hb, hf]

/-- Rewriting a batch by the identity changes nothing. -/
theorem setBatch_id (batchId : Uuid) (rows : List StampBatch) : setBatch batchId (fun b => b) rows = rows := by
  simp only [setBatch, ite_self]
  exact List.map_id' rows

/-- A rewriting of a batch that keeps its identity, its order and its size. -/
structure KeepsBatch (f : StampBatch → StampBatch) : Prop where
  id : ∀ b, (f b).id = b.id
  orderId : ∀ b, (f b).orderId = b.orderId
  requestedCount : ∀ b, (f b).requestedCount = b.requestedCount

/-- Rewritings that keep a batch compose. -/
theorem KeepsBatch.comp {f g : StampBatch → StampBatch} (hg : KeepsBatch g) (hf : KeepsBatch f) :
    KeepsBatch (g ∘ f) where
  id b := (hg.id (f b)).trans (hf.id b)
  orderId b := (hg.orderId (f b)).trans (hf.orderId b)
  requestedCount b := (hg.requestedCount (f b)).trans (hf.requestedCount b)

/-- The identity keeps a batch. -/
theorem KeepsBatch.refl : KeepsBatch fun b => b := ⟨fun _ => rfl, fun _ => rfl, fun _ => rfl⟩

/-- The batch of an order is the one in the table, or a new one of the order's quantity. -/
theorem ensureBatch_ok {draws : Draws} {order : Order} {now : Time} {batch : StampBatch} {db db' : Db}
    (h : ensureBatch draws order now db = .ok (batch, db')) :
    batch.orderId = order.id ∧ (batch ∈ db.stampBatches.rows ∨ batch.issuedCount = 0) ∧
      ∃ B : Table stampBatchSchema, batch ∈ B.rows ∧
      ((db.stampBatches.rows.filter (fun b => b.orderId = order.id) = [batch] ∧
          B.rows = db.stampBatches.rows) ∨
        (db.stampBatches.rows.filter (fun b => b.orderId = order.id) = [] ∧
          batch.requestedCount = order.quantity ∧ B.rows = db.stampBatches.rows ++ [batch])) ∧
      db' = Tables.stampBatches.set B db := by
  simp only [ensureBatch, Tx.bind_ok] at h
  obtain ⟨existing, db₁, hselect, hrest⟩ := h
  cases existing with
  | some found =>
    obtain ⟨hfilter, rfl⟩ := selectOne_some.mp hselect
    obtain ⟨rfl, rfl⟩ := Tx.pure_ok.mp hrest
    obtain ⟨hmem, hid⟩ := mem_of_filter_eq_singleton hfilter
    exact ⟨by simpa using hid, .inl hmem, db.stampBatches, hmem, .inl ⟨hfilter, rfl⟩, rfl⟩
  | none =>
    obtain ⟨hfilter, rfl⟩ := selectOne_none.mp hselect
    simp only [Tx.bind_ok, insertRow_ok, Tx.pure_ok] at hrest
    obtain ⟨-, db₂, ⟨B, hB, rfl⟩, rfl, rfl⟩ := hrest
    refine ⟨rfl, .inr rfl, B, ?_, .inr ⟨hfilter, rfl, hB⟩, rfl⟩
    rw [hB]
    exact List.mem_append_right _ (List.mem_singleton.mpr rfl)

/-- The history rows of a start of issuance. -/
def startHistory (order : Order) (now : Time) : List OrderTransition :=
  if order.status = .paid then [⟨order.id, some .paid, .issuing, none, "issuance started", now⟩] else []

/-- Starting an issuance moves a paid order to issuing and leaves any other as it is. -/
theorem startIssuance_ok {order order' : Order} {batch batch' : StampBatch} {now : Time} {db db' : Db}
    (h : startIssuance order batch now db = .ok ((order', batch'), db')) :
    ∃ (O : Table orderSchema) (T : Table orderTransitionSchema) (B : Table stampBatchSchema)
      (f : StampBatch → StampBatch),
      KeepsBatch f ∧ (∀ b, (f b).issuedCount = b.issuedCount) ∧
      order' = (if order.status = .paid then order.withStatus .issuing now else order) ∧
      batch'.id = batch.id ∧ batch'.requestedCount = batch.requestedCount ∧
      O.rows = (if order.status = .paid then moveOrder order.id .issuing now db.orders.rows
        else db.orders.rows) ∧
      T.rows = db.orderTransitions.rows ++ startHistory order now ∧
      B.rows = setBatch batch.id f db.stampBatches.rows ∧
      db' = Tables.stampBatches.set B (Tables.orderTransitions.set T (Tables.orders.set O db)) := by
  unfold startIssuance at h
  by_cases hpaid : order.status = .paid
  · simp only [hpaid, if_true, Tx.bind_ok, updateRows_ok, Tx.pure_ok] at h
    obtain ⟨moved, db₁, hmoved, -, db₂, ⟨B, hB, rfl⟩, hresult, rfl⟩ := h
    obtain ⟨-, rfl, O, T, hO, hT, rfl⟩ := transition_ok hmoved
    injection hresult with horder hbatch
    subst horder hbatch
    simp only [decide_eq_true_eq] at hB
    rw [hpaid] at hT
    refine ⟨O, T, B, fun b => { b with status := .issuing }, ⟨fun _ => rfl, fun _ => rfl, fun _ => rfl⟩,
      fun _ => rfl, ?_, rfl, rfl, ?_, ?_, hB, rfl⟩
    · rw [if_pos hpaid]
    · rw [if_pos hpaid, hO]
    · rw [hT, startHistory, if_pos hpaid]
  · simp only [hpaid, if_false, Tx.pure_ok] at h
    obtain ⟨hresult, rfl⟩ := h
    injection hresult with horder hbatch
    subst horder hbatch
    refine ⟨db.orders, db.orderTransitions, db.stampBatches, fun b => b, .refl, fun _ => rfl, ?_, rfl, rfl, ?_, ?_, ?_,
      rfl⟩
    · rw [if_neg hpaid]
    · rw [if_neg hpaid]
    · rw [startHistory, if_neg hpaid, List.append_nil]
    · rw [setBatch_id]

/-- The history rows of a completed issuance. -/
def finishHistory (order : Order) (now : Time) : List OrderTransition :=
  if order.status = .issuing then [⟨order.id, some .issuing, .issued, none, "issuance complete", now⟩] else []

/-- Finishing a batch rewrites that batch only. -/
theorem finishBatch_ok {batch : StampBatch} {issued : ℤ} {now : Time} {u : Unit} {db db' : Db}
    (h : finishBatch batch issued now db = .ok (u, db')) :
    ∃ (B : Table stampBatchSchema) (f : StampBatch → StampBatch), KeepsBatch f ∧
      ((∀ b, (f b).issuedCount = issued) ∨ ∀ b, (f b).issuedCount = b.issuedCount) ∧
      B.rows = setBatch batch.id f db.stampBatches.rows ∧ db' = Tables.stampBatches.set B db := by
  unfold finishBatch at h
  split at h
  · obtain ⟨B, hB, rfl⟩ := updateRows_ok.mp h
    simp only [decide_eq_true_eq] at hB
    exact ⟨B, fun b => { b with status := .issued, issuedCount := issued, completedAt := some now },
      ⟨fun _ => rfl, fun _ => rfl, fun _ => rfl⟩, .inl fun _ => rfl, hB, rfl⟩
  · obtain ⟨-, rfl⟩ := Tx.pure_ok.mp h
    exact ⟨db.stampBatches, fun b => b, .refl, .inr fun _ => rfl, (setBatch_id _ _).symm, rfl⟩

/-- The outbox after a chunk: the anchoring is announced when the order becomes issued. -/
def AnchorAnnounced (draws : Draws) (batchId : Uuid) (finished : Prop) (rows rows' : List OutboxMessage) : Prop :=
  (finished ∧ ∃ payload, Announced (draws.uuid 1) "batch.anchor_requested" ("batch.anchor:" ++ batchId.str) payload
    rows rows') ∨ (¬finished ∧ rows' = rows)

/-- The announcement lets the outbox grow. -/
theorem AnchorAnnounced.grows {draws : Draws} {batchId : Uuid} {finished : Prop} {rows rows' : List OutboxMessage}
    (h : AnchorAnnounced draws batchId finished rows rows') : OutboxGrows rows rows' := by
  rcases h with ⟨-, payload, hannounced⟩ | ⟨-, rfl⟩
  · exact hannounced.grows
  · exact .refl _

/-- What an announcement depends on may be said in another way. -/
theorem AnchorAnnounced.congr {draws : Draws} {batchId : Uuid} {finished finished' : Prop} {rows rows' : List OutboxMessage}
    (h : AnchorAnnounced draws batchId finished rows rows') (hiff : finished' ↔ finished) :
    AnchorAnnounced draws batchId finished' rows rows' := by
  unfold AnchorAnnounced
  rw [hiff]
  exact h

/-- Finishing an order moves it from issuing to issued. -/
theorem finishOrder_ok {settings : Settings} {draws : Draws} {order : Order} {batch : StampBatch} {now : Time}
    {u : Unit} {db db' : Db} (h : finishOrder settings draws order batch now db = .ok (u, db')) :
    ∃ (O : Table orderSchema) (T : Table orderTransitionSchema) (M : Table outboxMessageSchema),
      O.rows = (if order.status = .issuing then moveOrder order.id .issued now db.orders.rows
        else db.orders.rows) ∧
      T.rows = db.orderTransitions.rows ++ finishHistory order now ∧
      AnchorAnnounced draws batch.id (order.status = .issuing) db.outboxMessages.rows M.rows ∧
      db' = Tables.outboxMessages.set M (Tables.orderTransitions.set T (Tables.orders.set O db)) := by
  unfold finishOrder at h
  by_cases hissuing : order.status = .issuing
  · simp only [hissuing, if_true, Tx.bind_ok, selectAll_ok, Tx.lift_ok, Tx.pure_ok] at h
    obtain ⟨moved, db₁, hmoved, stamps, db₂, ⟨rfl, rfl⟩, root, db₃, ⟨-, rfl⟩, announced, db₄, henqueue, -,
      rfl⟩ := h
    obtain ⟨-, -, O, T, hO, hT, rfl⟩ := transition_ok hmoved
    obtain ⟨M, hM, rfl⟩ := enqueue_ok henqueue
    rw [hissuing] at hT
    refine ⟨O, T, M, ?_, ?_, .inl ⟨hissuing, _, _, _, _, hM⟩, rfl⟩
    · rw [if_pos hissuing, hO]
    · rw [hT, finishHistory, if_pos hissuing]
  · simp only [hissuing, if_false, Tx.pure_ok] at h
    obtain ⟨-, rfl⟩ := h
    refine ⟨db.orders, db.orderTransitions, db.outboxMessages, ?_, ?_, .inr ⟨hissuing, rfl⟩, rfl⟩
    · rw [if_neg hissuing]
    · rw [finishHistory, if_neg hissuing, List.append_nil]

/-- Completing a batch finishes the batch and its order. -/
theorem completeBatch_ok {settings : Settings} {draws : Draws} {order : Order} {batch : StampBatch}
    {issued : ℤ} {now : Time} {progress : IssuanceProgress} {db db' : Db}
    (h : completeBatch settings draws order batch issued now db = .ok (progress, db')) :
    ∃ (O : Table orderSchema) (T : Table orderTransitionSchema) (B : Table stampBatchSchema)
      (M : Table outboxMessageSchema) (f : StampBatch → StampBatch),
      KeepsBatch f ∧ ((∀ b, (f b).issuedCount = issued) ∨ ∀ b, (f b).issuedCount = b.issuedCount) ∧
      B.rows = setBatch batch.id f db.stampBatches.rows ∧
      O.rows = (if order.status = .issuing then moveOrder order.id .issued now db.orders.rows
        else db.orders.rows) ∧
      T.rows = db.orderTransitions.rows ++ finishHistory order now ∧
      progress = ⟨batch.id, batch.requestedCount, issued, true⟩ ∧
      AnchorAnnounced draws batch.id (order.status = .issuing) db.outboxMessages.rows M.rows ∧
      db' = Tables.outboxMessages.set M (Tables.orderTransitions.set T (Tables.orders.set O
        (Tables.stampBatches.set B db))) := by
  simp only [completeBatch, Tx.bind_ok, Tx.pure_ok] at h
  obtain ⟨u, db₁, hbatch, v, db₂, horder, rfl, rfl⟩ := h
  obtain ⟨B, f, hf, hissued, hB, rfl⟩ := finishBatch_ok hbatch
  obtain ⟨O, T, M, hO, hT, hM, rfl⟩ := finishOrder_ok horder
  exact ⟨O, T, B, M, f, hf, hissued, hB, hO, hT, rfl, hM, rfl⟩

/-- A stamp as a chunk prints it. -/
def Printed (settings : Settings) (order : Order) (batchId : Uuid) (now : Time) (s : Stamp) : Prop :=
  ∃ stampId, s = newStamp settings stampId order batchId s.serial now (now + days stampValidityDays)

/-- A printed stamp is an issued stamp of its order and batch. -/
theorem Printed.issued {settings : Settings} {order : Order} {batchId : Uuid} {now : Time} {s : Stamp}
    (h : Printed settings order batchId now s) :
    s.orderId = order.id ∧ s.batchId = batchId ∧ s.status = .issued := by
  obtain ⟨stampId, hs⟩ := h
  rw [hs]
  exact ⟨rfl, rfl, rfl⟩

/-- The formatted serials of a block. -/
def serialBlock (productCategory : String) (year start : ℤ) (count : ℕ) : List (Except Fault String) :=
  (List.range count).map fun i : ℕ => formatSerial productCategory year (start + (i : ℤ))

/-- The serials of stamps, each as a formatted one. -/
def Stamp.serials (stamps : List Stamp) : List (Except Fault String) := stamps.map fun s => .ok s.serial

/-- A block of serials yields one stamp per serial, all of the same order and batch. -/
theorem newStamps_ok {settings : Settings} {draws : Draws} {order : Order} {batchId : Uuid} {start : ℤ}
    {now : Time} {count offset : ℕ} {rows : List Stamp}
    (h : newStamps settings draws order batchId start now (now + days stampValidityDays) count offset = .ok rows) :
    rows.length = count ∧ (∀ s ∈ rows, Printed settings order batchId now s) ∧
      Stamp.serials rows = serialBlock order.productCategory (Time.year now) (start + offset) count := by
  induction count generalizing offset rows with
  | zero =>
    injection h with h
    subst h
    exact ⟨rfl, by simp, rfl⟩
  | succ count ih =>
    simp only [newStamps, Except.bind_ok] at h
    obtain ⟨serial, hserial, rest, hrest, heq⟩ := h
    injection heq with heq
    subst heq
    obtain ⟨hlength, hall, hserials⟩ := ih hrest
    refine ⟨by rw [List.length_cons, hlength], ?_, ?_⟩
    · rintro s (_ | ⟨_, hs⟩)
      · exact ⟨_, rfl⟩
      · exact hall s hs
    · have hnext : serialBlock order.productCategory (Time.year now) (start + (offset + 1 : ℕ)) count =
          (List.range count).map fun i : ℕ =>
            formatSerial order.productCategory (Time.year now) (start + offset + (i + 1 : ℕ)) := by
        refine List.map_congr_left fun i _ => congrArg _ ?_
        omega
      rw [hnext] at hserials
      rw [serialBlock, List.range_succ_eq_map, List.map_cons, List.map_map]
      refine congrArg₂ List.cons ?_ hserials
      exact hserial.symm.trans (congrArg (formatSerial _ _) (Int.add_zero _).symm)

/-- The next sequence number of a category and year; the counter starts at one. -/
def nextSerial (rows : List SerialCounter) (productCategory : String) (year : ℤ) : ℤ :=
  ((rows.find? fun c => c.productCategory = productCategory && c.year = year).map SerialCounter.nextValue).getD 1

/-- Creating a missing counter changes no next number. -/
theorem nextSerial_append (rows : List SerialCounter) (productCategory category' : String) (year year' : ℤ) :
    nextSerial (rows ++ [⟨productCategory, year, 1⟩]) category' year' = nextSerial rows category' year' := by
  unfold nextSerial
  rw [List.find?_append]
  cases hfound : rows.find? fun c => c.productCategory = category' && c.year = year' with
  | some counter => rfl
  | none =>
    simp only [Option.none_or, List.find?_singleton]
    split <;> rfl

/-- Advancing a counter advances its next number. -/
theorem nextSerial_advance {rows : List SerialCounter} {productCategory : String} {year count : ℤ}
    {counter : SerialCounter}
    (h : rows.filter (fun c => c.productCategory = productCategory && c.year = year) = [counter])
    (category' : String) (year' : ℤ) :
    nextSerial (rows.map fun c => if c.productCategory = productCategory && c.year = year then
        { c with nextValue := c.nextValue + count } else c) category' year' =
      nextSerial rows category' year' + if category' = productCategory ∧ year' = year then count else 0 := by
  have hkeys : ((fun c : SerialCounter => decide (c.productCategory = category') && decide (c.year = year')) ∘
      fun c => if c.productCategory = productCategory && c.year = year then
        { c with nextValue := c.nextValue + count } else c) =
      fun c => decide (c.productCategory = category') && decide (c.year = year') := by
    funext c
    simp only [Function.comp_apply]
    split <;> rfl
  unfold nextSerial
  rw [List.find?_map, hkeys]
  cases hfound : rows.find? fun c => c.productCategory = category' && c.year = year' with
  | none =>
    have hother : ¬(category' = productCategory ∧ year' = year) := by
      rintro ⟨rfl, rfl⟩
      rw [← List.head?_filter, h] at hfound
      cases hfound
    rw [if_neg hother]
    rfl
  | some c =>
    have hc := List.find?_some hfound
    simp only [Bool.and_eq_true, decide_eq_true_eq] at hc
    obtain ⟨rfl, rfl⟩ := hc
    simp only [Option.map_some, Option.getD_some, Bool.and_eq_true, decide_eq_true_eq]
    split <;> simp

/-- A claimed block is not empty and starts at the counter's next number; claiming advances that counter and
writes nothing else. -/
theorem allocateSerialBlock_ok {productCategory : String} {year count start : ℤ} {db db' : Db}
    (h : allocateSerialBlock productCategory year count db = .ok (start, db')) :
    0 < count ∧ start = nextSerial db.serialCounters.rows productCategory year ∧ ∃ C : Table serialCounterSchema,
      (∀ category' year', nextSerial C.rows category' year' = nextSerial db.serialCounters.rows category' year' +
        if category' = productCategory ∧ year' = year then count else 0) ∧
      db' = Tables.serialCounters.set C db := by
  simp only [allocateSerialBlock, Tx.bind_ok, Tx.require_ok, fetch_ok, updateRows_ok, Tx.pure_ok] at h
  obtain ⟨-, db₁, ⟨hcount, rfl⟩, u, db₂, hensure, counter, db₃, ⟨hcounter, rfl⟩, -, db₄, ⟨C, hC, rfl⟩, rfl, rfl⟩ := h
  have hcounters : ∃ C₁ : Table serialCounterSchema, (∀ category' year', nextSerial C₁.rows category' year' =
      nextSerial db.serialCounters.rows category' year') ∧ db₂ = Tables.serialCounters.set C₁ db := by
    simp only [ensureCounter, Tx.bind_ok, selectAll_ok] at hensure
    obtain ⟨existing, db₅, ⟨-, rfl⟩, hrest⟩ := hensure
    split at hrest
    · obtain ⟨C₁, hC₁, rfl⟩ := insertRow_ok.mp hrest
      refine ⟨C₁, fun category' year' => ?_, rfl⟩
      rw [hC₁]
      exact nextSerial_append ..
    · obtain ⟨-, rfl⟩ := Tx.pure_ok.mp hrest
      exact ⟨db.serialCounters, fun _ _ => rfl, rfl⟩
  obtain ⟨C₁, hC₁, rfl⟩ := hcounters
  change C₁.rows.filter _ = [counter] at hcounter
  change C.rows = C₁.rows.map _ at hC
  refine ⟨hcount, ?_, C, fun category' year' => ?_, rfl⟩
  · rw [← hC₁, nextSerial, ← List.head?_filter, hcounter]
    rfl
  · rw [hC, nextSerial_advance hcounter, hC₁]

/-- How many stamps a batch has. -/
def stampCount (db : Db) (batchId : Uuid) : ℤ := (db.stamps.rows.countP fun s => s.batchId = batchId : ℕ)

/-- The stamps of a chunk continue the serials of their category and year, and the counters follow. -/
structure SerialsClaimed (settings : Settings) (order : Order) (batchId : Uuid) (now : Time) (added : List Stamp)
    (counters counters' : List SerialCounter) : Prop where
  printed : ∀ s ∈ added, Printed settings order batchId now s
  serials : Stamp.serials added = serialBlock order.productCategory (Time.year now)
    (nextSerial counters order.productCategory (Time.year now)) added.length
  counters : ∀ category year, nextSerial counters' category year = nextSerial counters category year +
    if category = order.productCategory ∧ year = Time.year now then (added.length : ℤ) else 0

/-- No stamps claim nothing. -/
theorem SerialsClaimed.nil (settings : Settings) (order : Order) (batchId : Uuid) (now : Time)
    (counters : List SerialCounter) : SerialsClaimed settings order batchId now [] counters counters :=
  ⟨by simp, rfl, by simp⟩

/-- Printing a chunk appends at least one and at most the missing stamps; it completes the batch
when none is missing any more. -/
theorem printChunk_ok {settings : Settings} {draws : Draws} {order : Order} {batch : StampBatch}
    {issuedNow chunkSize : ℤ} {now : Time} {progress : IssuanceProgress} {db db' : Db}
    (h : printChunk settings draws order batch issuedNow chunkSize now db = .ok (progress, db')) :
    ∃ (added : List Stamp) (O : Table orderSchema) (T : Table orderTransitionSchema)
      (B : Table stampBatchSchema) (C : Table serialCounterSchema) (S : Table stampSchema)
      (M : Table outboxMessageSchema) (f : StampBatch → StampBatch),
      KeepsBatch f ∧ (∀ b, (f b).issuedCount = issuedNow + added.length) ∧
      (added.length : ℤ) = min chunkSize (batch.requestedCount - issuedNow) ∧
      (0 < added.length ∧ issuedNow + added.length ≤ batch.requestedCount) ∧
      SerialsClaimed settings order batch.id now added db.serialCounters.rows C.rows ∧
      (progress.completed = true ↔ batch.requestedCount ≤ issuedNow + added.length) ∧
      S.rows = db.stamps.rows ++ added ∧
      B.rows = setBatch batch.id f db.stampBatches.rows ∧
      O.rows = (if progress.completed = true ∧ order.status = .issuing
        then moveOrder order.id .issued now db.orders.rows else db.orders.rows) ∧
      T.rows = db.orderTransitions.rows ++ (if progress.completed = true then finishHistory order now else []) ∧
      AnchorAnnounced draws batch.id (progress.completed = true ∧ order.status = .issuing) db.outboxMessages.rows M.rows ∧
      db' = Tables.outboxMessages.set M (Tables.orderTransitions.set T (Tables.orders.set O
        (Tables.stampBatches.set B (Tables.stamps.set S (Tables.serialCounters.set C db))))) := by
  simp only [printChunk, Tx.bind_ok, Tx.lift_ok, insertRows_ok, updateRows_ok] at h
  obtain ⟨start, db₁, hallocate, expiresAt, db₂, ⟨hexpires, rfl⟩, added, db₃, ⟨hadded, rfl⟩, -, db₄, ⟨S, hS, rfl⟩, -,
    db₅, ⟨B₁, hB₁, rfl⟩, hrest⟩ := h
  obtain ⟨hcount, rfl, C, hC, rfl⟩ := allocateSerialBlock_ok hallocate
  obtain rfl := Time.add_ok hexpires
  obtain ⟨hlength, hall, hserials⟩ := newStamps_ok hadded
  have htotal : (added.length : ℤ) = min chunkSize (batch.requestedCount - issuedNow) := by
    rw [hlength, Int.toNat_of_nonneg hcount.le]
  have hclaimed : SerialsClaimed settings order batch.id now added db.serialCounters.rows C.rows := by
    refine ⟨hall, ?_, ?_⟩
    · rw [hserials, hlength]
      exact congrArg (serialBlock _ _ · _) (Int.add_zero _)
    · intro category year
      rw [hC, htotal]
  simp only [decide_eq_true_eq] at hB₁
  have hbounds : 0 < added.length ∧ issuedNow + added.length ≤ batch.requestedCount := by omega
  have hkeeps : KeepsBatch fun b =>
      { b with issuedCount := issuedNow + min chunkSize (batch.requestedCount - issuedNow) } :=
    ⟨fun _ => rfl, fun _ => rfl, fun _ => rfl⟩
  split at hrest
  · rename_i hcomplete
    obtain ⟨O, T, B, M, f, hf, hissued, hB, hO, hT, rfl, hM, rfl⟩ := completeBatch_ok hrest
    refine ⟨added, O, T, B, C, S, M, _, hf.comp hkeeps, ?_, htotal, hbounds, hclaimed, ?_, hS, ?_, ?_, ?_, ?_, rfl⟩
    · intro b
      rw [htotal]
      rcases hissued with hissued | hissued
      · exact hissued _
      · exact hissued _
    · simpa [htotal] using hcomplete
    · rw [← setBatch_setBatch hkeeps.id]
      change B.rows = setBatch batch.id f B₁.rows at hB
      rw [hB, hB₁]
      rfl
    · simpa using hO
    · simpa using hT
    · simpa using hM
  · rename_i hcomplete
    obtain ⟨rfl, rfl⟩ := Tx.pure_ok.mp hrest
    refine ⟨added, db.orders, db.orderTransitions, B₁, C, S, db.outboxMessages, _, hkeeps, ?_, htotal, hbounds, hclaimed, ?_, hS,
      hB₁, ?_, ?_, .inr ⟨by simp, rfl⟩, rfl⟩
    · intro b
      rw [htotal]
    · simpa [htotal] using hcomplete
    · simp
    · simp

/-- The status an order ends up with after a chunk. -/
def issuedStatus (status : OrderStatus) (complete : Bool) : OrderStatus :=
  if status = .issued ∨ complete then .issued else .issuing

/-- The history rows of a chunk. -/
def issuanceHistory (order : Order) (complete : Bool) (now : Time) : List OrderTransition :=
  startHistory order now ++
    if order.status ≠ .issued ∧ complete then
      [⟨order.id, some .issuing, .issued, none, "issuance complete", now⟩]
    else []

/-- What a committed chunk does: it works on the only batch of a paid order, adds missing stamps to
it, and completes batch and order when the requested count is reached. -/
inductive IssueEffect (settings : Settings) (draws : Draws) (orderId : Uuid) (chunkSize : ℤ) (now : Time) (db : Db) : Db → Prop
  | chunk (order : Order) (batch : StampBatch) (base : List StampBatch) (added : List Stamp)
      (complete : Bool) (f : StampBatch → StampBatch) (O : Table orderSchema)
      (T : Table orderTransitionSchema) (B : Table stampBatchSchema) (C : Table serialCounterSchema)
      (S : Table stampSchema) (M : Table outboxMessageSchema) (A : Table auditEventSchema)
      (horder : order ∈ db.orders.rows) (hid : order.id = orderId)
      (hstatus : order.status = .paid ∨ order.status = .issuing ∨ order.status = .issued)
      (hbatch : batch.orderId = order.id)
      (hbase : (db.stampBatches.rows.filter (fun b => b.orderId = order.id) = [batch] ∧
          base = db.stampBatches.rows) ∨
        (db.stampBatches.rows.filter (fun b => b.orderId = order.id) = [] ∧
          batch.requestedCount = order.quantity ∧ base = db.stampBatches.rows ++ [batch]))
      (hadded : ∀ s ∈ added, s.orderId = order.id ∧ s.batchId = batch.id ∧ s.status = .issued)
      (hcount : (batch.requestedCount ≤ stampCount db batch.id ∧ added = []) ∨
        (0 < added.length ∧ stampCount db batch.id + added.length ≤ batch.requestedCount))
      (hcomplete : complete = true ↔ batch.requestedCount ≤ stampCount db batch.id + added.length)
      (hf : KeepsBatch f)
      (hO : O.rows = if issuedStatus order.status complete = order.status then db.orders.rows
        else moveOrder order.id (issuedStatus order.status complete) now db.orders.rows)
      (hT : T.rows = db.orderTransitions.rows ++ issuanceHistory order complete now)
      (hB : B.rows = setBatch batch.id f base)
      (hS : S.rows = db.stamps.rows ++ added)
      (hM : OutboxGrows db.outboxMessages.rows M.rows)
      (hissued : (∀ b, (f b).issuedCount = stampCount db batch.id + added.length) ∨
        (added = [] ∧ ∀ b, (f b).issuedCount = b.issuedCount))
      (hfresh : batch ∈ db.stampBatches.rows ∨ batch.issuedCount = 0)
      (hclaimed : SerialsClaimed settings order batch.id now added db.serialCounters.rows C.rows)
      (hanchor : AnchorAnnounced draws batch.id (complete = true ∧ order.status ≠ .issued) db.outboxMessages.rows M.rows)
      (hA : if complete = true then Audited settings db.auditEvents.rows A.rows
        else A.rows = db.auditEvents.rows)
      (hchunk : added = [] ∨ (added.length : ℤ) = min chunkSize (batch.requestedCount - stampCount db batch.id)) :
      IssueEffect settings draws orderId chunkSize now db (Tables.auditEvents.set A (Tables.outboxMessages.set M (Tables.stamps.set S
        (Tables.serialCounters.set C (Tables.stampBatches.set B (Tables.orderTransitions.set T
          (Tables.orders.set O db)))))))

/-- The orders after the start and the completion of a chunk. -/
theorem issuedOrders_eq {order : Order} (complete : Bool) (now : Time) (rows : List Order)
    (hstatus : order.status = .paid ∨ order.status = .issuing ∨ order.status = .issued) :
    (if complete = true ∧ (if order.status = .paid then order.withStatus .issuing now else order).status = .issuing
      then moveOrder order.id .issued now
        (if order.status = .paid then moveOrder order.id .issuing now rows else rows)
      else if order.status = .paid then moveOrder order.id .issuing now rows else rows) =
    if issuedStatus order.status complete = order.status then rows
      else moveOrder order.id (issuedStatus order.status complete) now rows := by
  rcases hstatus with h | h | h <;> cases complete <;>
    simp [h, issuedStatus, moveOrder_moveOrder, Order.withStatus]

/-- After its start a chunk finds its order issuing unless it was issued before. -/
theorem started_issuing_iff {order : Order} (now : Time)
    (hstatus : order.status = .paid ∨ order.status = .issuing ∨ order.status = .issued) :
    order.status ≠ .issued ↔
      (if order.status = .paid then order.withStatus .issuing now else order).status = .issuing := by
  rcases hstatus with h | h | h <;> simp [h, Order.withStatus]

/-- The start of a chunk does not matter to the serials it claims. -/
theorem SerialsClaimed.started {settings : Settings} {order : Order} {batchId : Uuid} {now : Time}
    {added : List Stamp} {counters counters' : List SerialCounter}
    (h : SerialsClaimed settings (if order.status = .paid then order.withStatus .issuing now else order) batchId now
      added counters counters') : SerialsClaimed settings order batchId now added counters counters' := by
  split at h
  · exact ⟨h.printed, h.serials, h.counters⟩
  · exact h

/-- The history after the start and the completion of a chunk. -/
theorem issuedHistory_eq {order : Order} (complete : Bool) (now : Time)
    (hstatus : order.status = .paid ∨ order.status = .issuing ∨ order.status = .issued) :
    startHistory order now ++ (if complete = true then
      finishHistory (if order.status = .paid then order.withStatus .issuing now else order) now else []) =
    issuanceHistory order complete now := by
  rcases hstatus with h | h | h <;> cases complete <;>
    simp [h, issuanceHistory, startHistory, finishHistory, Order.withStatus]

/-- Only a completed batch is audited, and nothing but the audit trail is touched. -/
theorem auditProgress_ok {settings : Settings} {draws : Draws} {progress : IssuanceProgress} {now : Time}
    {u : Unit} {db db' : Db} (h : auditProgress settings draws progress now db = .ok (u, db')) :
    ∃ A : Table auditEventSchema,
      (if progress.completed = true then Audited settings db.auditEvents.rows A.rows
        else A.rows = db.auditEvents.rows) ∧ db' = Tables.auditEvents.set A db := by
  unfold auditProgress at h
  split at h
  · rename_i hcompleted
    simp only [Tx.bind_ok, Tx.pure_ok] at h
    obtain ⟨event, db₁, haudit, -, rfl⟩ := h
    obtain ⟨A, hA, rfl⟩ := recordAuditEvent_ok haudit
    exact ⟨A, by rw [if_pos hcompleted]; exact hA, rfl⟩
  · rename_i hcompleted
    obtain ⟨-, rfl⟩ := Tx.pure_ok.mp h
    exact ⟨db.auditEvents, by rw [if_neg hcompleted], rfl⟩

/-- A committed chunk transaction has the effect of a chunk. -/
theorem issueOrderChunk_ok {settings : Settings} {draws : Draws} {orderId : Uuid} {chunkSize : ℤ} {now : Time}
    {progress : IssuanceProgress} {db db' : Db}
    (h : issueOrderChunk settings draws orderId chunkSize now db = .ok (progress, db')) :
    IssueEffect settings draws orderId chunkSize now db db' := by
  simp only [issueOrderChunk, issueChunk, Tx.bind_ok, fetch_ok, Tx.require_ok, Tx.pure_ok] at h
  obtain ⟨result, db₁, ⟨order, db₂, ⟨hfetch, rfl⟩, -, db₃, ⟨hstatus, rfl⟩, batch, db₄, hensure, ⟨order', batch'⟩,
    db₅, hstart, hrest⟩, v, db₆, haudit, -, rfl⟩ := h
  obtain ⟨horder, hid⟩ := mem_of_filter_eq_singleton hfetch
  obtain ⟨hbatch, hfresh, B₁, -, hbase, rfl⟩ := ensureBatch_ok hensure
  obtain ⟨O₁, T₁, B₂, f₁, hf₁, hcount₁, rfl, hbatchId, hrequested, hO₁, hT₁, hB₂, rfl⟩ := startIssuance_ok hstart
  obtain ⟨A, hA, rfl⟩ := auditProgress_ok haudit
  have hmoved : (if order.status = .paid then order.withStatus .issuing now else order).id = order.id := by
    split <;> rfl
  simp only [Tx.read_ok] at hrest
  obtain ⟨issuedNow, db₇, ⟨rfl, rfl⟩, hrest⟩ := hrest
  have hbase' : (db.stampBatches.rows.filter (fun b => b.orderId = order.id) = [batch] ∧
        B₁.rows = db.stampBatches.rows) ∨
      (db.stampBatches.rows.filter (fun b => b.orderId = order.id) = [] ∧
        batch.requestedCount = order.quantity ∧ B₁.rows = db.stampBatches.rows ++ [batch]) := hbase
  change B₂.rows = setBatch batch.id f₁ B₁.rows at hB₂
  split at hrest
  · rename_i hnone
    rw [hbatchId, hrequested] at hnone
    obtain ⟨O, T, B, M, f, hf, hissued, hB, hO, hT, rfl, hM, rfl⟩ := completeBatch_ok hrest
    rw [hbatchId] at hB hM hissued
    change B.rows = setBatch batch.id f B₂.rows at hB
    rw [hmoved] at hO
    change O.rows = (if _ then moveOrder order.id .issued now O₁.rows else O₁.rows) at hO
    change T.rows = T₁.rows ++ _ at hT
    have hO' := issuedOrders_eq true now db.orders.rows hstatus
    have hT' := issuedHistory_eq true now hstatus
    change batch.requestedCount - stampCount db batch.id ≤ 0 at hnone
    refine .chunk order batch B₁.rows [] true (f ∘ f₁) O T B db.serialCounters db.stamps M A horder
      (by simpa using hid) hstatus hbatch hbase' (by simp) (.inl ⟨by omega, rfl⟩)
      (by simp; omega) (hf.comp hf₁) ?_ ?_ ?_ (by simp) hM.grows ?_ hfresh (.nil ..) ?_ hA (.inl rfl)
    · rw [hO, hO₁, ← hO']
      simp
    · rw [hT, hT₁, List.append_assoc, ← hT']
      simp
    · rw [hB, hB₂, setBatch_setBatch hf₁.id]
    · rcases hissued with hissued | hissued
      · exact .inl fun b => (hissued (f₁ b)).trans (Int.add_zero _).symm
      · exact .inr ⟨rfl, fun b => (hissued (f₁ b)).trans (hcount₁ b)⟩
    · refine hM.congr ?_
      rw [← started_issuing_iff now hstatus]
      simp
  · rename_i hsome
    obtain ⟨added, O, T, B, C, S, M, f, hf, hissued, hsize, hbounds, hclaimed, hcomplete, hS, hB, hO, hT, hM, rfl⟩ :=
      printChunk_ok hrest
    rw [hbatchId] at hB hbounds hclaimed hcomplete hissued hM hsize
    rw [hrequested] at hbounds hcomplete hsize
    rw [hmoved] at hO
    replace hclaimed := hclaimed.started
    have hadded : ∀ s ∈ added, s.orderId = order.id ∧ s.batchId = batch.id ∧ s.status = .issued :=
      fun s hs => (hclaimed.printed s hs).issued
    change B.rows = setBatch batch.id f B₂.rows at hB
    change O.rows = (if _ then moveOrder order.id .issued now O₁.rows else O₁.rows) at hO
    change T.rows = T₁.rows ++ _ at hT
    refine .chunk order batch B₁.rows added result.completed (f ∘ f₁) O T B C S M A horder
      (by simpa using hid) hstatus hbatch hbase' hadded (.inr hbounds) hcomplete (hf.comp hf₁) ?_ ?_ ?_ hS
      hM.grows (.inl fun b => hissued (f₁ b)) hfresh hclaimed
      (hM.congr (and_congr_right fun _ => started_issuing_iff now hstatus)) hA (.inr hsize)
    · rw [hO, hO₁]
      exact issuedOrders_eq _ _ _ hstatus
    · rw [hT, hT₁, List.append_assoc]
      exact congrArg _ (issuedHistory_eq _ _ hstatus)
    · rw [hB, hB₂, setBatch_setBatch hf₁.id]

/-- A chunk that returns as completed leaves its order issued. -/
theorem issueOrderChunk_completed {settings : Settings} {draws : Draws} {orderId : Uuid} {chunkSize : ℤ} {now : Time}
    {progress : IssuanceProgress} {db db' : Db}
    (h : issueOrderChunk settings draws orderId chunkSize now db = .ok (progress, db'))
    (hcompleted : progress.completed = true) : ∀ o ∈ db'.orders.rows, o.id = orderId → o.status = .issued := by
  simp only [issueOrderChunk, issueChunk, Tx.bind_ok, fetch_ok, Tx.require_ok, Tx.pure_ok] at h
  obtain ⟨result, db₁, ⟨order, db₂, ⟨hfetch, rfl⟩, -, db₃, ⟨hstatus, rfl⟩, batch, db₄, hensure, ⟨order', batch'⟩,
    db₅, hstart, hrest⟩, v, db₆, haudit, rfl, rfl⟩ := h
  obtain ⟨-, -, B₁, -, -, rfl⟩ := ensureBatch_ok hensure
  obtain ⟨O₁, T₁, B₂, f₁, -, -, rfl, -, -, hO₁, -, -, rfl⟩ := startIssuance_ok hstart
  obtain ⟨A, -, rfl⟩ := auditProgress_ok haudit
  have hid : order.id = orderId := by simpa using (mem_of_filter_eq_singleton hfetch).2
  have hmoved : (if order.status = .paid then order.withStatus .issuing now else order).id = order.id := by
    split <;> rfl
  simp only [Tx.read_ok] at hrest
  obtain ⟨issuedNow, db₇, ⟨rfl, rfl⟩, hrest⟩ := hrest
  have horders : db₁.orders.rows = if issuedStatus order.status true = order.status then db.orders.rows
      else moveOrder order.id (issuedStatus order.status true) now db.orders.rows := by
    have hmoves := issuedOrders_eq true now db.orders.rows hstatus
    split at hrest
    · obtain ⟨O, T, B, M, f, -, -, -, hO, -, -, -, rfl⟩ := completeBatch_ok hrest
      rw [hmoved] at hO
      change O.rows = (if _ then moveOrder order.id .issued now O₁.rows else O₁.rows) at hO
      rw [← hmoves]
      simpa [hO₁] using hO
    · obtain ⟨added, O, T, B, C, S, M, f, -, -, -, -, -, -, -, -, hO, -, -, rfl⟩ := printChunk_ok hrest
      rw [hmoved, hcompleted] at hO
      change O.rows = (if _ then moveOrder order.id .issued now O₁.rows else O₁.rows) at hO
      rw [← hmoves]
      simpa [hO₁] using hO
  have htarget : issuedStatus order.status true = .issued := by simp [issuedStatus]
  intro o ho hsame
  change o ∈ db₁.orders.rows at ho
  rw [horders, htarget] at ho
  split at ho
  · rename_i hissued
    have hmem : o ∈ db.orders.rows.filter fun o => o.id = orderId := List.mem_filter.mpr ⟨ho, decide_eq_true hsame⟩
    rw [hfetch, List.mem_singleton] at hmem
    rw [hmem]
    exact hissued.symm
  · obtain ⟨old, -, ⟨-, rfl⟩ | ⟨hother, rfl⟩⟩ := mem_moveOrder.mp ho
    · rfl
    · exact absurd (hsame.trans hid.symm) hother

end TaxStamp
