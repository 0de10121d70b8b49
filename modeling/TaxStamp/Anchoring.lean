import TaxStamp.AuditActions
import TaxStamp.PaidOrders

/-!
# Anchored roots

Completing a batch takes the Merkle root of its sorted serials into the message that asks
for its anchoring. From then on the batch is closed: its order is issued, no stamp is
added to it, and stamps are never moved or renamed. The root therefore stays the root of
the batch, however late and however often the message is delivered.

The handler records the root that the anchoring service has answered, and does not compare
it with the root that it has submitted. So the recorded root is that of the batch as long
as the service echoes what it is sent.
-/

namespace TaxStamp

open Lib

variable {settings : Settings} {db db' : Db}

/-- The serials of a batch in their order. -/
def batchSerials (db : Db) (batchId : Uuid) : List String :=
  ((db.stamps.rows.filter fun s => s.batchId = batchId).map Stamp.serial).insertionSort
    fun a b => codePointsLe a.toList b.toList = true

/-! ### Closed batches -/

/-- The batch is there with its order, and its serials are what they were. -/
structure SameBatch (b : StampBatch) (db db' : Db) : Prop where
  batch : ∃ b' ∈ db'.stampBatches.rows, b'.id = b.id ∧ b'.orderId = b.orderId
  serials : batchSerials db' b.id = batchSerials db b.id

/-- The root of a batch whose order has all its stamps. -/
structure Rooted (settings : Settings) (db : Db) (batchId : Uuid) (root : String) : Prop where
  closed : ∃ b ∈ db.stampBatches.rows, b.id = batchId ∧ ∃ o ∈ db.orders.rows, o.id = b.orderId ∧ o.status = .issued
  root : merkleRoot settings.crypto (batchSerials db batchId) = .ok root

variable {b : StampBatch}

/-- A batch stays as it is in the same stock. -/
theorem SameBatch.of_stock (hb : b ∈ db.stampBatches.rows) (hbatches : db'.stampBatches = db.stampBatches)
    (hstamps : db'.stamps = db.stamps) : SameBatch b db db' := by
  constructor
  · rw [hbatches]
    exact ⟨b, hb, rfl, rfl⟩
  · rw [batchSerials, hstamps, batchSerials]

/-- Rewriting batches and stamps in place keeps a batch. -/
theorem SameBatch.relabel (hb : b ∈ db.stampBatches.rows) {f : StampBatch → StampBatch} {g : Stamp → Stamp}
    (hf : KeepsBatch f) (hg : KeepsStamp g) (hB : db'.stampBatches.rows = db.stampBatches.rows.map f)
    (hS : db'.stamps.rows = db.stamps.rows.map g) : SameBatch b db db' := by
  constructor
  · rw [hB]
    exact ⟨f b, List.mem_map_of_mem hb, hf.id b, hf.orderId b⟩
  · have hfilter : (db.stamps.rows.map g).filter (fun s => s.batchId = b.id) =
        (db.stamps.rows.filter fun s => s.batchId = b.id).map g := by
      rw [List.filter_map]
      refine congrArg _ (List.filter_congr fun s _ => ?_)
      simp only [Function.comp_apply, hg.batchId]
    have hserials : ∀ stamps : List Stamp, (stamps.map g).map Stamp.serial = stamps.map Stamp.serial := by
      intro stamps
      rw [List.map_map]
      exact List.map_congr_left fun s _ => hg.serial s
    rw [batchSerials, hS, hfilter, hserials, batchSerials]

/-- A chunk adds nothing to the batch of an issued order. -/
theorem SameBatch.issued {draws : Draws} {orderId : Uuid} {chunkSize : ℤ} {now : Time} (hstock : Stocktake db)
    (hb : b ∈ db.stampBatches.rows) {o : Order} (ho : o ∈ db.orders.rows) (hid : o.id = b.orderId)
    (hissued : o.status = .issued) (heffect : IssueEffect settings draws orderId chunkSize now db db') :
    SameBatch b db db' := by
  obtain ⟨order, batch, base, added, complete, f, O, T, B, C, S, M, A, horder, -, hstatus, hbatch, hbase, hadded,
    hcount, -, hf, -, -, hB, hS⟩ := heffect
  have hkeeps := Stock.keepsBatch_ite hf fun b => b.id = batch.id
  constructor
  · have hmem : b ∈ base := by
      rcases hbase with ⟨-, rfl⟩ | ⟨-, -, rfl⟩
      · exact hb
      · exact List.mem_append_left _ hb
    refine ⟨if b.id = batch.id then f b else b, ?_, hkeeps.id b, hkeeps.orderId b⟩
    change _ ∈ B.rows
    rw [hB]
    exact List.mem_map_of_mem hmem
  · have hnone : added.filter (fun s => s.batchId = b.id) = [] := by
      refine List.filter_eq_nil_iff.mpr fun s hs hsame => ?_
      have hsameId : b.id = batch.id := by
        rw [← (hadded s hs).2.1]
        exact (of_decide_eq_true hsame).symm
      -- the batch is that of an issued order, which has all its stamps
      have hsame : order = o := by
        refine order_eq_of_id db horder ho ?_
        rcases hbase with ⟨hold, -⟩ | ⟨-, -, hnew⟩
        · rw [hid, db.stock.batch_eq_of_id hb (mem_of_filter_eq_singleton hold).1 hsameId, hbatch]
        · exact absurd hsameId (Stocktake.batch_ne_of_new hf hB hnew b hb)
      obtain ⟨hrequested, -, -, hall⟩ := hstock.batch_of_issue horder hstatus hbase
      have htotal := hall (hsame ▸ hissued)
      rw [← hrequested, ← hstock.stampCount_eq horder hstatus hbase hf hB hbatch] at htotal
      rcases hcount with ⟨-, rfl⟩ | ⟨hpositive, hbound⟩
      · cases hs
      · omega
    change (((S.rows.filter _).map _).insertionSort _) = _
    rw [hS, List.filter_append, hnone, List.append_nil, batchSerials]

/-- A step keeps the batch of an issued order. -/
theorem SameBatch.step {s : Platform} {e : Event} (hstock : Stocktake s.db) (hb : b ∈ s.db.stampBatches.rows) {o : Order}
    (ho : o ∈ s.db.orders.rows) (hid : o.id = b.orderId) (hissued : o.status = .issued)
    (h : Change settings s e db') : SameBatch b s.db db' := by
  cases h with
  | sameCore _ _ hsame => exact .of_stock hb hsame.stampBatches hsame.stamps
  | submitted => exact .of_stock hb rfl rfl
  | decided draws actor command now key order P db₁ A horder _ hstatus hrole hsubmitter hfirst hP heffect =>
    cases heffect <;> exact .of_stock hb rfl rfl
  | cancelled => exact .of_stock hb rfl rfl
  | ingested draws advice now db' heffect => cases heffect <;> exact .of_stock hb rfl rfl
  | issued draws orderId chunkSize now db' heffect => exact .issued hstock hb ho hid hissued heffect
  | inspected draws actor command now db' heffect =>
    obtain ⟨batch, inspection, g, N, S, V, B, A, -, -, -, -, -, hg, -, hS, hB, -, -⟩ := heffect
    refine .relabel hb (Stock.keepsBatch_ite ?_ _) hg hB hS
    exact ⟨fun _ => rfl, fun _ => rfl, fun _ => rfl⟩
  | activated index draws actor now key a db' ha heffect =>
    obtain ⟨g, S, V, A, hg, -, hS, -, -⟩ := heffect
    exact .relabel hb .refl hg (List.map_id' _).symm hS
  | retired _ _ heffect =>
    obtain ⟨g, S, V, A, hg, -, hS, -, -⟩ := heffect
    exact .relabel hb .refl hg (List.map_id' _).symm hS

/-- The root of a closed batch stays its root. -/
theorem Rooted.step {s : Platform} {e : Event} {batchId : Uuid} {root : String} (h : Rooted settings s.db batchId root)
    (hstock : Stocktake s.db) (hchange : Change settings s e db') : Rooted settings db' batchId root := by
  obtain ⟨⟨b, hb, rfl, o, ho, hid, hissued⟩, hroot⟩ := h
  obtain ⟨⟨b', hb', hsame, horder⟩, hserials⟩ := SameBatch.step hstock hb ho hid hissued hchange
  refine ⟨⟨b', hb', hsame, o, hchange.issued_kept ho hissued, ?_, hissued⟩, ?_⟩
  · rw [horder, hid]
  · rw [hserials]
    exact hroot

/-- The root of a batch does not depend on the rest of the database. -/
theorem Rooted.frame {batchId : Uuid} {root : String} (h : Rooted settings db batchId root) (hcore : SameCore db db') :
    Rooted settings db' batchId root := by
  obtain ⟨hclosed, hroot⟩ := h
  constructor
  · rw [hcore.stampBatches, hcore.orders]
    exact hclosed
  · rw [batchSerials, hcore.stamps]
    exact hroot

/-- A closed batch has all the stamps that were requested. -/
theorem Rooted.complete {batchId : Uuid} {root : String} (h : Rooted settings db batchId root) (hstock : Stocktake db) :
    ∃ b ∈ db.stampBatches.rows, b.id = batchId ∧ stampCount db b.id = b.requestedCount := by
  obtain ⟨⟨b, hb, rfl, o, ho, hid, hissued⟩, -⟩ := h
  have hstocked := hstock.stocked o ho
  unfold Stock.Stocked at hstocked
  rw [hissued] at hstocked
  obtain ⟨b₀, hinBatch, hlength⟩ := hstocked
  have hfilter : db.stampBatches.rows.filter (fun b => b.orderId = o.id) = [b₀] := hinBatch.batches
  obtain rfl : b = b₀ := by
    have hmem : b ∈ db.stampBatches.rows.filter fun b => b.orderId = o.id :=
      List.mem_filter.mpr ⟨hb, decide_eq_true hid.symm⟩
    rw [hfilter] at hmem
    exact List.mem_singleton.mp hmem
  refine ⟨b, hb, rfl, ?_⟩
  have hbase : (db.stampBatches.rows.filter (fun b => b.orderId = o.id) = [b] ∧
      db.stampBatches.rows = db.stampBatches.rows) ∨ (db.stampBatches.rows.filter (fun b => b.orderId = o.id) = [] ∧
      b.requestedCount = o.quantity ∧ db.stampBatches.rows = db.stampBatches.rows ++ [b]) := .inl ⟨hfilter, rfl⟩
  rw [hstock.stampCount_eq ho (.inr (.inr hissued)) hbase .refl (setBatch_id _ _).symm hid.symm, hlength,
    hinBatch.requested]

/-! ### Requests for anchoring -/

/-- The message asks for the anchoring of a root of a batch. -/
structure OutboxMessage.AsksAnchor (m : OutboxMessage) (batchId : Uuid) (root : String) : Prop where
  dedupeKey : m.dedupeKey = "batch.anchor:" ++ batchId.str
  batchId : requireStr m.payload "batch_id" = .ok batchId.str
  root : requireStr m.payload "merkle_root" = .ok root

/-- Every request for anchoring carries the root of a closed batch. -/
def AnchorsAsked (settings : Settings) (db : Db) : Prop :=
  ∀ m ∈ db.outboxMessages.rows, m.eventType = "batch.anchor_requested" →
    ∃ batchId root, m.AsksAnchor batchId root ∧ Rooted settings db batchId root

/-- Every message of the new outbox is an old one, or asks for the anchoring of the batch by the root of its serials. -/
def AsksOwnRoot (settings : Settings) (batchId : Uuid) (db db' : Db) : Prop :=
  ∀ m ∈ db'.outboxMessages.rows, m ∈ db.outboxMessages.rows ∨
    ∃ root, m.AsksAnchor batchId root ∧ merkleRoot settings.crypto (batchSerials db' batchId) = .ok root

variable {draws : Draws} {order : Order} {batch : StampBatch} {now : Time}

/-- Finishing an order asks for the anchoring of its batch. -/
theorem finishOrder_asks {u : Unit} (h : finishOrder settings draws order batch now db = .ok (u, db')) :
    AsksOwnRoot settings batch.id db db' := by
  unfold finishOrder at h
  split at h
  · simp only [Tx.bind_ok, selectAll_ok, Tx.lift_ok, Tx.pure_ok] at h
    obtain ⟨moved, db₁, hmoved, stamps, db₂, ⟨rfl, rfl⟩, root, db₃, ⟨hroot, rfl⟩, announced, db₄, henqueue, -, rfl⟩ := h
    obtain ⟨-, -, O, T, -, -, rfl⟩ := transition_ok hmoved
    obtain ⟨M, hM, rfl⟩ := enqueue_ok henqueue
    intro m hm
    rcases hM with hrows | ⟨hrows, -⟩
    · change m ∈ M.rows at hm
      rw [hrows] at hm
      refine (List.mem_append.mp hm).imp_right fun hnew => ⟨root, ?_, hroot⟩
      rw [List.mem_singleton.mp hnew]
      exact ⟨rfl, rfl, rfl⟩
    · change m ∈ M.rows at hm
      rw [hrows] at hm
      exact .inl hm
  · obtain ⟨-, rfl⟩ := Tx.pure_ok.mp h
    exact fun m hm => .inl hm

/-- Completing a batch asks for its anchoring. -/
theorem completeBatch_asks {issued : ℤ} {progress : IssuanceProgress}
    (h : completeBatch settings draws order batch issued now db = .ok (progress, db')) :
    AsksOwnRoot settings batch.id db db' := by
  simp only [completeBatch, Tx.bind_ok, Tx.pure_ok] at h
  obtain ⟨u, db₁, hbatch, v, db₂, horder, -, rfl⟩ := h
  obtain ⟨B, f, -, -, -, rfl⟩ := finishBatch_ok hbatch
  have hasks := finishOrder_asks horder
  exact hasks

/-- A chunk that completes its batch asks for its anchoring. -/
theorem issueOrderChunk_asks {orderId : Uuid} {chunkSize : ℤ} {progress : IssuanceProgress}
    (h : issueOrderChunk settings draws orderId chunkSize now db = .ok (progress, db')) :
    ∃ batchId, AsksOwnRoot settings batchId db db' := by
  simp only [issueOrderChunk, issueChunk, Tx.bind_ok, fetch_ok, Tx.require_ok, Tx.pure_ok, Tx.read_ok] at h
  obtain ⟨result, db₁, ⟨order, db₂, ⟨-, rfl⟩, -, db₃, ⟨-, rfl⟩, batch, db₄, hensure, ⟨order', batch'⟩,
    db₅, hstart, issuedNow, db₆, ⟨-, rfl⟩, hrest⟩, v, db₇, haudit, -, rfl⟩ := h
  obtain ⟨-, -, B₁, -, -, rfl⟩ := ensureBatch_ok hensure
  obtain ⟨O₁, T₁, B₂, f₁, -, -, -, -, -, -, -, -, rfl⟩ := startIssuance_ok hstart
  obtain ⟨A, -, rfl⟩ := auditProgress_ok haudit
  refine ⟨batch'.id, ?_⟩
  split at hrest
  · have hasks := completeBatch_asks hrest
    exact hasks
  · simp only [printChunk, Tx.bind_ok, Tx.lift_ok, insertRows_ok, updateRows_ok] at hrest
    obtain ⟨start, db₈, hallocate, expiresAt, db₉, ⟨-, rfl⟩, added, db₁₀, ⟨-, rfl⟩, -, db₁₁, ⟨S, -, rfl⟩, -, db₁₂,
      ⟨B₃, -, rfl⟩, hrest⟩ := hrest
    obtain ⟨-, -, C, -, rfl⟩ := allocateSerialBlock_ok hallocate
    split at hrest
    · have hasks := completeBatch_asks hrest
      exact hasks
    · obtain ⟨-, rfl⟩ := Tx.pure_ok.mp hrest
      exact fun m hm => .inl hm

/-- A chunk asks for the anchoring of a batch that it has closed. -/
theorem AnchorsAsked.issued {orderId : Uuid} {chunkSize : ℤ} {progress : IssuanceProgress} {s : Platform}
    (h : AnchorsAsked settings s.db) (hstock : Stocktake s.db)
    (hok : issueOrderChunk settings draws orderId chunkSize now s.db = .ok (progress, db')) : AnchorsAsked settings db' := by
  have heffect := issueOrderChunk_ok hok
  have hchange : Change settings s (.issueChunk draws orderId chunkSize now) db' :=
    .issued draws orderId chunkSize now db' heffect
  obtain ⟨batchId, hasks⟩ := issueOrderChunk_asks hok
  intro m hm htype
  rcases hasks m hm with hold | ⟨root, hanchor, hroot⟩
  · obtain ⟨batchId, root, hanchor, hrooted⟩ := h m hold htype
    exact ⟨batchId, root, hanchor, hrooted.step hstock hchange⟩
  · by_cases hold : m ∈ s.db.outboxMessages.rows
    · obtain ⟨batchId, root, hanchor, hrooted⟩ := h m hold htype
      exact ⟨batchId, root, hanchor, hrooted.step hstock hchange⟩
    · refine ⟨batchId, root, hanchor, ?_, hroot⟩
      obtain ⟨order, batch, base, added, complete, f, O, T, B, C, S, M, A, horder, -, hstatus, hbatch, hbase, -, -, -, hf,
        hO, -, hB, -, -, -, -, -, hannounced, -, -⟩ := heffect
      change m ∈ M.rows at hm
      rcases hannounced with ⟨⟨hcomplete, hunissued⟩, payload, _, _, _, hrows | ⟨hrows, -⟩⟩ | ⟨-, hrows⟩
      · -- the message is the announcement of the chunk, so its batch is the batch of the chunk
        rw [hrows] at hm
        have hnew := List.mem_singleton.mp ((List.mem_append.mp hm).resolve_left hold)
        have hkey := hanchor.dedupeKey
        rw [hnew] at hkey
        obtain rfl : batch.id = batchId := Uuid.str_injective ((String.append_right_inj _).mp hkey)
        have hself := Stocktake.batchesOf_issue_self hbase hf hB hbatch S
        have hmem : f batch ∈ (⟨B, S⟩ : Stock).batchesOf order.id := by
          rw [hself]
          exact List.mem_singleton_self _
        refine ⟨f batch, List.mem_of_mem_filter hmem, hf.id batch, order.withStatus .issued now, ?_, ?_, rfl⟩
        · change _ ∈ O.rows
          have hissued : issuedStatus order.status complete = .issued := by simp [issuedStatus, hcomplete]
          rw [hO, hissued, if_neg (Ne.symm hunissued)]
          exact mem_moveOrder.mpr ⟨order, horder, .inl ⟨rfl, rfl⟩⟩
        · rw [hf.orderId, hbatch]
          rfl
      · rw [hrows] at hm
        exact absurd hm hold
      · rw [hrows] at hm
        exact absurd hm hold

/-- The outbox has grown by messages of other kinds. -/
def GrowsUnanchored (rows rows' : List OutboxMessage) : Prop :=
  ∃ new, rows' = rows ++ new ∧ ∀ m ∈ new, m.eventType ≠ "batch.anchor_requested"

/-- An outbox grows by nothing. -/
theorem GrowsUnanchored.refl (rows : List OutboxMessage) : GrowsUnanchored rows rows := ⟨[], by simp, by simp⟩

/-- A message of another kind asks for no anchoring. -/
theorem Announced.growsUnanchored {messageId : Uuid} {eventType dedupeKey : String} {payload : JsonObject}
    {rows rows' : List OutboxMessage} (h : Announced messageId eventType dedupeKey payload rows rows')
    (htype : eventType ≠ "batch.anchor_requested") : GrowsUnanchored rows rows' := by
  obtain ⟨aggregateType, aggregateId, availableAt, rfl | ⟨rfl, -⟩⟩ := h
  · refine ⟨_, rfl, fun m hm => ?_⟩
    rw [List.mem_singleton.mp hm]
    exact htype
  · exact .refl _

/-- A transaction asks for no anchoring. -/
def Db.AsksNoAnchor (db db' : Db) : Prop := GrowsUnanchored db.outboxMessages.rows db'.outboxMessages.rows

/-- Only a chunk asks for an anchoring. -/
theorem step_asksNoAnchor (settings : Settings) (s : Platform) (e : Event) (hother : e.relays = false)
    (hchunk : ∀ draws orderId chunkSize now, e ≠ .issueChunk draws orderId chunkSize now) :
    s.db.AsksNoAnchor (step settings s e).db := by
  cases step_outbox settings s e with
  | quiet hM =>
    change GrowsUnanchored _ (step settings s e).db.outboxMessages.rows
    rw [hM]
    exact .refl _
  | requested messageId eventType dedupeKey payload hannouncement hannounced =>
    refine hannounced.growsUnanchored ?_
    cases hannouncement with
    | anchor draws orderId chunkSize now batchId => exact absurd rfl (hchunk draws orderId chunkSize now)
    | _ => decide
  | rewritten hrelays =>
    rw [hother] at hrelays
    cases hrelays

/-- Every transaction of a service keeps the requests for anchoring true. -/
theorem AnchorsAsked.step (s : Platform) (e : Event) (h : AnchorsAsked settings s.db) (hstock : Stocktake s.db)
    (hother : e.relays = false) : AnchorsAsked settings (step settings s e).db := by
  by_cases hchunk : ∃ draws orderId chunkSize now, e = .issueChunk draws orderId chunkSize now
  · obtain ⟨draws, orderId, chunkSize, now, rfl⟩ := hchunk
    exact Tx.commit_induction (AnchorsAsked settings) h fun progress db' hok => h.issued hstock hok
  · push Not at hchunk
    obtain ⟨new, hrows, hnew⟩ := step_asksNoAnchor settings s e hother hchunk
    intro m hm htype
    rw [hrows] at hm
    rcases List.mem_append.mp hm with hm | hm
    · obtain ⟨batchId, root, hanchor, hrooted⟩ := h m hm htype
      exact ⟨batchId, root, hanchor, hrooted.step hstock (step_change settings s e)⟩
    · exact absurd htype (hnew m hm)

/-! ### Acknowledgements -/

/-- The record reports the anchoring of a batch by a root. -/
structure AuditRecord.Anchors (record : AuditRecord) (batchId : Uuid) (root : String) : Prop where
  targetId : record.targetId = batchId.str
  afterState : ∃ state, record.afterState = some state ∧ requireStr state "merkle_root" = .ok root

/-- The record reports what the anchoring service has answered to the request of a message. -/
def Acknowledged (client : ProviderClient) (payload : JsonObject) (record : AuditRecord) : Prop :=
  ∃ text batchId root receipt, requireStr payload "batch_id" = .ok text ∧ Uuid.parse text = .ok batchId ∧
    requireStr payload "merkle_root" = .ok root ∧ anchor client batchId.str root = .ok receipt ∧
    record.Anchors batchId receipt.root

variable {delivery : RelayDelivery} {payload : JsonObject}

/-- The handler records the answer. -/
theorem handleAnchorBatch_records {u : Unit} (h : handleAnchorBatch settings delivery payload db = .ok (u, db')) :
    TrailGrows (Acknowledged delivery.anchorClient payload) db db' := by
  simp only [handleAnchorBatch, Tx.bind_ok, Tx.lift_ok, fetch_ok, Tx.pure_ok] at h
  obtain ⟨text, db₁, ⟨htext, rfl⟩, batchId, db₂, ⟨hparse, rfl⟩, root, db₃, ⟨hroot, rfl⟩, receipt, db₄, ⟨hreceipt, rfl⟩,
    batch, db₅, ⟨hbatch, rfl⟩, event, db₆, haudit, -, rfl⟩ := h
  have hid : batch.id = batchId := of_decide_eq_true (mem_of_filter_eq_singleton hbatch).2
  refine recordAuditEvent_records ⟨text, batchId, root, receipt, htext, hparse, hroot, hreceipt, ?_, _, rfl, rfl⟩ _ _ _ haudit
  rw [hid]

/-- A notification records another action. -/
theorem handleNotify_records {u : Unit} (h : handleNotify settings delivery payload db = .ok (u, db')) :
    TrailGrows (fun record => record.action ≠ "batch.anchored") db db' := by
  simp only [handleNotify, Tx.bind_ok, Tx.lift_ok, Tx.pure_ok] at h
  obtain ⟨targetId, db₁, ⟨-, rfl⟩, event, db₂, haudit, -, rfl⟩ := h
  exact recordAuditEvent_records (show "notification.recorded" ≠ "batch.anchored" by decide) _ _ _ haudit

/-- A handler records an anchoring only for a request for it, and then what the service has answered. -/
theorem handle_records {eventType : String} {u : Unit} (h : handle settings delivery payload eventType db = .ok (u, db')) :
    TrailGrows (fun record => record.action = "batch.anchored" →
      eventType = "batch.anchor_requested" ∧ Acknowledged delivery.anchorClient payload record) db db' := by
  unfold handle at h
  split at h
  · simp only [handleIssueStamps, Tx.bind_ok, Tx.lift_ok] at h
    obtain ⟨text, db₁, ⟨-, rfl⟩, orderId, db₂, ⟨-, rfl⟩, -, rfl⟩ := h
    exact .of_eq rfl
  split at h
  · rename_i htype
    exact (handleAnchorBatch_records h).mono fun record hrecord _ => ⟨htype, hrecord⟩
  split at h
  · exact (handleNotify_records h).mono fun record hother haction => absurd haction hother
  split at h
  · simp only [handleMismatchReview, Tx.bind_ok, Tx.lift_ok] at h
    obtain ⟨expected, db₁, ⟨-, rfl⟩, amount, db₂, ⟨-, rfl⟩, receiptId, db₃, ⟨-, rfl⟩, hnotify⟩ := h
    exact (handleNotify_records hnotify).mono fun record hother haction => absurd haction hother
  split at h
  · simp only [handleTigerbeetleTransfer, Tx.bind_ok, Tx.lift_ok] at h
    obtain ⟨text, db₁, ⟨-, rfl⟩, intentId, db₂, ⟨-, rfl⟩, -, rfl⟩ := h
    exact .of_eq rfl
  · cases h

/-- The record is what a worker leaves behind that delivers a request for anchoring. -/
def RelaysAnswer (db : Db) (w : RelayWorker) (e : RelayWorkerEvent) (record : AuditRecord) : Prop :=
  ∃ message rest delivery error, w.phase = .relaying (message :: rest) ∧ e = .deliver delivery error ∧
    Acknowledged delivery.anchorClient message.payload record ∧
    ∃ current ∈ db.outboxMessages.rows, current.id = message.id ∧ current.eventType = "batch.anchor_requested"

/-- A statement of a worker records an anchoring only when it delivers a request for it. -/
theorem relayOnce_records (settings : RelaySettings) (db : Db) (w : RelayWorker) (e : RelayWorkerEvent) :
    TrailGrows (fun record => record.action = "batch.anchored" → RelaysAnswer db w e record) db
      ((relayOnce settings db w e).db db) := by
  cases hact : relayOnce settings db w e with
  | claimed messages now db' =>
    obtain ⟨locked, hclaim⟩ := relayOnce_claimed hact
    obtain ⟨candidates, M, -, -, -, rfl⟩ := claimBatch_ok hclaim
    exact .of_eq rfl
  | delivered message rest db' =>
    obtain ⟨hphase, delivery, error, rfl, hdeliver⟩ := relayOnce_delivered hact
    simp only [deliver, Tx.bind_ok, fetch_ok, Tx.lift_ok] at hdeliver
    obtain ⟨current, _, ⟨hfetch, rfl⟩, v, db₂, hhandle, -, _, ⟨-, rfl⟩, hmark⟩ := hdeliver
    obtain ⟨hmem, hid⟩ := mem_of_filter_eq_singleton hfetch
    obtain ⟨M, -, rfl⟩ := markProcessed_ok hmark
    have hrecords : TrailGrows (fun record => record.action = "batch.anchored" →
        RelaysAnswer db w (.deliver delivery error) record) db db₂ := by
      refine (handle_records hhandle).mono fun record hrecord haction => ?_
      obtain ⟨htype, hanswer⟩ := hrecord haction
      exact ⟨message, rest, delivery, error, hphase, rfl, hanswer, current, hmem, of_decide_eq_true hid, htype⟩
    exact hrecords
  | failed message retry dead rest db' =>
    refine .of_eq ?_
    unfold relayOnce at hact
    split at hact
    · split at hact <;> cases hact
    · split at hact <;> cases hact
    · cases hact
    · split at hact <;> cases hact
    · split at hact
      · rename_i hfailed
        obtain ⟨M, -, -, rfl⟩ := markFailed_ok hfailed
        cases hact
        rfl
      · cases hact
    · cases hact
    · cases hact
  | moved phase => exact .of_eq rfl

/-! ### Runs -/

/-- Every recorded anchoring is by the root of a closed batch. -/
def AnchorsRecorded (settings : Settings) (db : Db) : Prop :=
  ∀ a ∈ db.auditEvents.rows, a.action = "batch.anchored" →
    ∃ batchId root, a.record.Anchors batchId root ∧ Rooted settings db batchId root

/-- The message that a worker delivers next. -/
def RelayPhase.next : RelayPhase → Option OutboxMessage
  | .relaying claimed => claimed.head?
  | .failing .. | .recording .. => none

/-- The anchoring service answers a delivery with the root that it was sent, or with no root at all. -/
def echoesRoot (s : Relay) : RelayEvent → Prop
  | .worker index (.deliver delivery _) => ∀ w ∈ s.workers[index]?, ∀ message ∈ w.phase.next,
    ∀ batchId root response answered, requireStr message.payload "merkle_root" = .ok root →
      delivery.anchorClient.postJson "/v1/anchors" [("batch_id", .str batchId), ("root", .str root)] = .ok response →
      requireStr response "root" = .ok answered → answered = root
  | _ => True

/-- A record that others leave behind is not about an anchoring. -/
def anchorsNothing : RelayEvent → Prop
  | .service (.recordAudit _ _ _ record _) => record.action ≠ "batch.anchored"
  | _ => True

/-- The receipt of an anchoring has what the service has answered. -/
theorem anchor_ok {client : ProviderClient} {batchId root : String} {receipt : AnchorReceipt}
    (h : anchor client batchId root = .ok receipt) :
    ∃ response, client.postJson "/v1/anchors" [("batch_id", .str batchId), ("root", .str root)] = .ok response ∧
      requireStr response "root" = .ok receipt.root := by
  simp only [anchor, Except.bind_ok] at h
  obtain ⟨-, -, response, hresponse, acknowledged, hroot, externalReference, -, anchoredAt, -, heq⟩ := h
  cases heq
  exact ⟨response, hresponse, hroot⟩

/-- Requests and records of anchorings are true to the batches, and the copies of the workers to the messages. -/
structure Relay.Anchored (settings : Settings) (s : Relay) : Prop where
  stocktake : Stocktake s.platform.db
  asked : AnchorsAsked settings s.platform.db
  copies : s.Copies
  recorded : AnchorsRecorded settings s.platform.db

/-- New records of anchorings by the roots of closed batches keep the records true. -/
theorem AnchorsRecorded.grows (h : AnchorsRecorded settings db)
    (hrooted : ∀ batchId root, Rooted settings db batchId root → Rooted settings db' batchId root)
    {P : AuditRecord → Prop} (hgrows : TrailGrows P db db')
    (hnew : ∀ record, P record → record.action = "batch.anchored" →
      ∃ batchId root, record.Anchors batchId root ∧ Rooted settings db batchId root) : AnchorsRecorded settings db' := by
  obtain ⟨new, hrows, hall⟩ := hgrows
  intro a ha haction
  rw [hrows] at ha
  rcases List.mem_append.mp ha with hold | hadded
  · obtain ⟨batchId, root, hanchors, hroot⟩ := h a hold haction
    exact ⟨batchId, root, hanchors, hrooted batchId root hroot⟩
  · obtain ⟨batchId, root, hanchors, hroot⟩ := hnew a.record (hall a hadded) haction
    exact ⟨batchId, root, hanchors, hrooted batchId root hroot⟩

/-- The services record no anchoring. -/
theorem mayRecord_ne_anchored {s : Platform} {e : Event} {record : AuditRecord} (h : e.mayRecord s record)
    (helsewhere : anchorsNothing (.service e)) : record.action ≠ "batch.anchored" := by
  cases e with
  | createLedgerIntent =>
    rw [h.1]
    decide
  | ledgerWork work =>
    intro haction
    have hprefix := h.1
    rw [haction] at hprefix
    exact absurd hprefix (by decide)
  | recordAudit draws eventId actor allowed now =>
    obtain rfl : record = allowed := h
    exact helsewhere
  | readStatuses => cases h
  | claimBatch => cases h
  | markProcessed => cases h
  | markFailed => cases h
  | decideApproval draws actor command now key =>
    rw [show record.action = _ from h]
    generalize command.decision = decision
    cases decision <;> decide
  | _ =>
    rw [show record.action = _ from h]
    decide

/-- A transaction of a service keeps the anchorings true. -/
theorem Relay.Anchored.service {settings : RelaySettings} {s : Relay} (h : s.Anchored settings.toSettings) {e : Event}
    (hother : e.relays = false) (helsewhere : anchorsNothing (.service e)) :
    (relayStep settings s (.service e)).Anchored settings.toSettings := by
  have hcopies : (relayStep settings s (.service e)).Copies := Relay.Copies.step settings s _ h.copies
  simp only [relayStep, hother, Bool.false_eq_true, if_false] at hcopies ⊢
  refine ⟨h.stocktake.step settings.toSettings s.platform e, h.asked.step s.platform e h.stocktake hother, hcopies, ?_⟩
  refine h.recorded.grows (fun batchId root hroot => ?_) (step_records settings.toSettings s.platform e) ?_
  · exact hroot.step h.stocktake (step_change settings.toSettings s.platform e)
  · exact fun record hmay haction => absurd haction (mayRecord_ne_anchored hmay helsewhere)

/-- What the service has answered to a request is the root of the batch, if it echoes. -/
theorem Relay.Anchored.answer {settings : Settings} {s : Relay} (h : s.Anchored settings) {index : ℕ} {w : RelayWorker}
    (hw : s.workers[index]? = some w) {e : RelayWorkerEvent} (hechoes : echoesRoot s (.worker index e))
    {record : AuditRecord} (hanswer : RelaysAnswer s.platform.db w e record) :
    ∃ batchId root, record.Anchors batchId root ∧ Rooted settings s.platform.db batchId root := by
  obtain ⟨message, rest, delivery, error, hphase, rfl, ⟨text, batchId, root, receipt, htext, hparse, hroot, hreceipt,
    hanchors⟩, current, hcurrent, hid, htype⟩ := hanswer
  -- the copy that the worker delivers says what the message says
  obtain ⟨m, hm, hlabel⟩ := h.copies w (List.mem_of_getElem? hw) message (by rw [hphase]; exact List.mem_cons_self)
  obtain rfl := message_eq_of_id s.platform.db hm hcurrent (hlabel.id.trans hid.symm)
  obtain ⟨batchId', root', hasks, hrooted⟩ := h.asked m hm htype
  have hbatchId := hasks.batchId
  rw [hlabel.payload, htext] at hbatchId
  obtain rfl : text = batchId'.str := Except.ok.inj hbatchId
  rw [Uuid.parse_str] at hparse
  obtain rfl : batchId' = batchId := Except.ok.inj hparse
  have hsame := hasks.root
  rw [hlabel.payload, hroot] at hsame
  obtain rfl : root = root' := Except.ok.inj hsame
  obtain ⟨response, hresponse, hanswered⟩ := anchor_ok hreceipt
  have hnext : message ∈ w.phase.next := by
    rw [hphase]
    rfl
  obtain rfl : receipt.root = root := hechoes w hw message hnext _ _ _ _ hroot hresponse hanswered
  exact ⟨_, _, hanchors, hrooted⟩

/-- A statement of a worker keeps the anchorings true, if the anchoring service echoes. -/
theorem Relay.Anchored.worker {settings : RelaySettings} {s : Relay} (h : s.Anchored settings.toSettings) {index : ℕ}
    {w : RelayWorker} (hw : s.workers[index]? = some w) {e : RelayWorkerEvent}
    (hechoes : echoesRoot s (.worker index e)) :
    (relayStep settings s (.worker index e)).Anchored settings.toSettings := by
  have hcopies : (relayStep settings s (.worker index e)).Copies := Relay.Copies.step settings s _ h.copies
  have hcore := relayOnce_sameCore settings s.platform.db w e
  obtain ⟨f, hrows, hhandled⟩ := relayOnce_outbox settings s.platform.db w e
  simp only [relayStep, hw] at hcopies ⊢
  refine ⟨?_, ?_, hcopies, ?_⟩
  · exact h.stocktake.frame hcore.orders (congrArg₂ Stock.mk hcore.stampBatches hcore.stamps)
  · intro m' hm' htype
    change m' ∈ ((relayOnce settings s.platform.db w e).db s.platform.db).outboxMessages.rows at hm'
    rw [hrows] at hm'
    obtain ⟨m, hm, rfl⟩ := List.mem_map.mp hm'
    have hlabel := (hhandled m hm).sameLabel
    rw [hlabel.eventType] at htype
    obtain ⟨batchId, root, hasks, hrooted⟩ := h.asked m hm htype
    refine ⟨batchId, root, ⟨?_, ?_, ?_⟩, hrooted.frame hcore⟩
    · rw [hlabel.dedupeKey]
      exact hasks.dedupeKey
    · rw [hlabel.payload]
      exact hasks.batchId
    · rw [hlabel.payload]
      exact hasks.root
  · refine h.recorded.grows (fun batchId root hroot => hroot.frame hcore)
      (relayOnce_records settings s.platform.db w e) fun record hrecord haction => ?_
    exact h.answer hw hechoes (hrecord haction)

/-- Every event keeps the anchorings true, if the anchoring service echoes. -/
theorem Relay.Anchored.step (settings : RelaySettings) (s : Relay) (e : RelayEvent) (h : s.Anchored settings.toSettings)
    (hechoes : echoesRoot s e) (helsewhere : anchorsNothing e) : (relayStep settings s e).Anchored settings.toSettings := by
  cases e with
  | service e =>
    cases hrelays : e.relays with
    | true =>
      simp only [relayStep, hrelays, if_true]
      exact h
    | false => exact h.service hrelays helsewhere
  | join workerId => exact ⟨h.stocktake, h.asked, Relay.Copies.step settings s (.join workerId) h.copies, h.recorded⟩
  | worker index e =>
    cases hw : s.workers[index]? with
    | none =>
      simp only [relayStep, hw]
      exact h
    | some w => exact h.worker hw hechoes

/-- Every run keeps the anchorings true, if the anchoring service echoes. -/
theorem Relay.Anchored.run {settings : RelaySettings} {s : Relay} (h : s.Anchored settings.toSettings)
    (events : List RelayEvent) (helsewhere : ∀ e ∈ events, anchorsNothing e)
    (hechoes : Along (relayStep settings) echoesRoot s events) :
    (Lib.run (relayStep settings) s events).Anchored settings.toSettings := by
  induction events generalizing s with
  | nil => exact h
  | cons e rest ih =>
    have hstep := h.step settings s e hechoes.1 (helsewhere e (List.mem_cons_self ..))
    exact ih hstep (fun e he => helsewhere e (List.mem_cons_of_mem _ he)) hechoes.2

/-- No anchoring is asked for or recorded at the start. -/
theorem Relay.Anchored.initial (settings : Settings) (companies : Table companySchema) (tariffs : Table tariffSchema) :
    Relay.Anchored settings (.initial companies tariffs) := by
  refine ⟨.initial companies tariffs, ?_, ?_, ?_⟩
  · exact fun _ hm => absurd hm List.not_mem_nil
  · exact fun _ hw => absurd hw List.not_mem_nil
  · exact fun _ ha => absurd ha List.not_mem_nil

/-- The recorded anchor is the batch's own root, in every run in which the anchoring service answers with the root that
it was sent: each recorded anchoring of a batch has the Merkle root of the sorted serials of the batch, and the batch has
exactly the requested number of stamps. -/
theorem anchors_own_root_of_echoes (settings : RelaySettings) (companies : Table companySchema)
    (tariffs : Table tariffSchema) (events : List RelayEvent) (helsewhere : ∀ e ∈ events, anchorsNothing e)
    (hechoes : Along (relayStep settings) echoesRoot (.initial companies tariffs) events) :
    let db := (run (relayStep settings) (.initial companies tariffs) events).platform.db
    ∀ a ∈ db.auditEvents.rows, a.action = "batch.anchored" →
      ∃ b ∈ db.stampBatches.rows, a.targetId = b.id.str ∧ stampCount db b.id = b.requestedCount ∧
        ∃ state root, a.afterState = some state ∧ requireStr state "merkle_root" = .ok root ∧
          merkleRoot settings.crypto (batchSerials db b.id) = .ok root := by
  intro db a ha haction
  have hanchored := (Relay.Anchored.initial settings.toSettings companies tariffs).run events helsewhere hechoes
  obtain ⟨batchId, root, hanchors, hrooted⟩ := hanchored.recorded a ha haction
  obtain ⟨b, hb, rfl, hcount⟩ := hrooted.complete hanchored.stocktake
  obtain ⟨state, hstate, hroot⟩ := hanchors.afterState
  exact ⟨b, hb, hanchors.targetId, hcount, state, root, hstate, hroot, hrooted.root⟩

/-- The rest of the delivery of a request for anchoring when its batch is known. -/
def submitAnchor (settings : Settings) (delivery : RelayDelivery) (message : OutboxMessage) (batchId : Uuid) :
    Session Unit := do
  let root ← Tx.lift (requireStr message.payload "merkle_root")
  let receipt ← Tx.lift (anchor delivery.anchorClient batchId.str root)
  let batch ← fetch Tables.stampBatches (fun b => b.id = batchId) .noResultFound
  let _ ← recordAuditEvent settings delivery.draws (delivery.draws.uuid 0) systemWorker
    { action := "batch.anchored"
      targetType := "stamp_batch"
      targetId := batch.id.str
      outcome := .success
      afterState := some [("merkle_root", .str receipt.root),
        ("external_reference", .str receipt.externalReference),
        ("anchored_at", .str receipt.anchoredAt)] }
    (delivery.clock 0)
  Tx.lift delivery.published
  markProcessed message.id (delivery.clock 1)

/-- A request for anchoring is delivered so. -/
theorem deliver_of_submitAnchor {settings : RelaySettings} {message current : OutboxMessage} {batchId : Uuid} {u : Unit}
    (hcurrent : db.outboxMessages.rows.filter (fun m => m.id = message.id) = [current])
    (htype : current.eventType = "batch.anchor_requested")
    (hbatchId : requireStr message.payload "batch_id" = .ok batchId.str)
    (h : submitAnchor settings.toSettings delivery message batchId db = .ok (u, db')) :
    deliver settings delivery message db = .ok (u, db') := by
  simp only [submitAnchor, Tx.bind_ok, Tx.lift_ok] at h
  obtain ⟨root, _, ⟨hroot, rfl⟩, receipt, _, ⟨hreceipt, rfl⟩, batch, db₁, hbatch, event, db₂, haudit, v, _,
    ⟨hpublished, rfl⟩, hmark⟩ := h
  have hhandle : handle settings.toSettings delivery message.payload current.eventType db = .ok ((), db₂) := by
    rw [htype, handle, if_neg (by decide), if_pos rfl]
    simp only [handleAnchorBatch, Tx.bind_ok, Tx.lift_ok, Tx.pure_ok]
    exact ⟨batchId.str, db, ⟨hbatchId, rfl⟩, batchId, db, ⟨Uuid.parse_str batchId, rfl⟩, root, db, ⟨hroot, rfl⟩, receipt, db,
      ⟨hreceipt, rfl⟩, batch, db₁, hbatch, event, db₂, haudit, trivial, rfl⟩
  simp only [deliver, Tx.bind_ok, Tx.lift_ok, fetch_ok]
  exact ⟨current, db, ⟨hcurrent, rfl⟩, (), db₂, hhandle, v, db₂, ⟨hpublished, rfl⟩, hmark⟩

/-- A result that is there is the result. -/
theorem Except.toOption_eq_some {ε α : Type} {x : Except ε α} {a : α} : x.toOption = some a ↔ x = .ok a := by
  cases x <;> simp [Except.toOption]

/-- The database after a worker has delivered the request for the anchoring of a batch. -/
def Relay.anchorDelivered (settings : Settings) (s : Relay) (index : ℕ) (delivery : RelayDelivery) (batchId : Uuid) :
    Option Db :=
  match s.workers[index]? with
  | some ⟨_, .relaying (message :: _)⟩ =>
    if (s.outbox.filter fun m => m.id = message.id).map OutboxMessage.eventType = ["batch.anchor_requested"] ∧
        (requireStr message.payload "batch_id").toOption = some batchId.str then
      (submitAnchor settings delivery message batchId s.platform.db).toOption.map Prod.snd
    else none
  | _ => none

/-- The delivery commits that database. -/
theorem Relay.relayStep_anchorDelivered {settings : RelaySettings} {s : Relay} {index : ℕ} {batchId : Uuid}
    (h : s.anchorDelivered settings.toSettings index delivery batchId = some db') (error : String) :
    (relayStep settings s (.worker index (.deliver delivery error))).platform.db = db' := by
  unfold Relay.anchorDelivered at h
  split at h
  · rename_i workerId message rest hw
    split at h
    · rename_i hrequest
      obtain ⟨htypes, hid⟩ := hrequest
      obtain ⟨current, hcurrent, htype⟩ := List.map_eq_singleton_iff.mp htypes
      have hbatchId : requireStr message.payload "batch_id" = .ok batchId.str := Except.toOption_eq_some.mp hid
      obtain ⟨⟨u, db₁⟩, hsubmit, hcommit⟩ := Option.map_eq_some_iff.mp h
      obtain rfl : db₁ = db' := hcommit
      have hdeliver := deliver_of_submitAnchor hcurrent htype hbatchId (Except.toOption_eq_some.mp hsubmit)
      have hact : relayOnce settings s.platform.db ⟨workerId, .relaying (message :: rest)⟩ (.deliver delivery error) =
          .delivered message rest db₁ := by
        unfold relayOnce
        dsimp only
        rw [hdeliver]
      simp only [relayStep, hw, hact, RelayAct.db]
    · cases h
  · cases h

/-- The sample batch is complete, and a worker has come to the message that asks for its anchoring. -/
def sampleCompleted : List RelayEvent :=
  sampleIssued.map .service ++ [.join "w0", sampleClaim 0 0, sampleDeliver 0 5, .worker 0 (.raise "TimeoutError: "),
    .worker 0 .readFailed, .worker 0 (.recordFailed sampleNow)]

/-- An anchoring service that answers with a text instead of the root that it is sent. -/
def sampleNotary (answer : String → String) : ProviderClient :=
  ⟨"LedgerAnchor", true, fun _ body => .answer 200 (some (.obj
    [("root", .str (answer ((requireStr body "root").toOption.getD ""))), ("reference", .str "ANCHOR-1"),
      ("anchored_at", .str "2026-01-01T00:00:00+00:00")]))⟩

/-- The delivery of the request for anchoring. -/
def sampleAnchoring (answer : String → String) : RelayDelivery :=
  ⟨sampleNotary answer, .ok (), .ok (), sampleDraws 6, fun _ => sampleNow⟩

/-- The sample batch gets anchored by whatever the service answers. -/
theorem sampleCompleted_anchored :
    let s := run (relayStep sampleRelaySettings) (.initial sampleCompanies sampleTariffs) sampleCompleted
    ((s.anchorDelivered sampleSettings 0 (sampleAnchoring fun root => root) ⟨400⟩).any fun db =>
      db.auditEvents.rows.any fun a => a.action = "batch.anchored") = true ∧
    ((s.anchorDelivered sampleSettings 0 (sampleAnchoring fun _ => "00") ⟨400⟩).any fun db =>
      (db.auditEvents.rows.any fun a => a.action = "batch.anchored" &&
        (a.afterState.bind fun state => (requireStr state "merkle_root").toOption) = some "00") &&
      db.stampBatches.rows.all fun b => (merkleRoot sampleSettings.crypto (batchSerials db b.id)).toOption ≠ some "00") =
        true := by
  decide +kernel

/-- The sample service echoes what it is sent. -/
theorem sampleNotary_echoes {path batchId root answered : String} {response : JsonObject}
    (h : (sampleNotary fun root => root).postJson path [("batch_id", .str batchId), ("root", .str root)] = .ok response)
    (hroot : requireStr response "root" = .ok answered) : answered = root := by
  obtain rfl : _ = response := Except.ok.inj h
  exact (Except.ok.inj hroot).symm

/-- Other events of the sample ask no anchoring service that is configured. -/
theorem sampleCompleted_echoes (s : Relay) : ∀ e ∈ sampleCompleted, anchorsNothing e ∧ echoesRoot s e := by
  intro e he
  simp only [sampleCompleted, sampleIssued, sampleApproved, List.map_append, List.map_cons, List.map_nil,
    List.mem_append, List.mem_cons, List.not_mem_nil, or_false] at he
  rcases he with ((rfl | rfl) | rfl | rfl) | rfl | rfl | rfl | rfl | rfl | rfl
  case inr.inr.inr.inl =>
    refine ⟨trivial, fun w hw message hmessage batchId root response answered hroot hresponse => ?_⟩
    cases hresponse
  all_goals exact ⟨trivial, trivial⟩

/-- An echoed root is recorded as the root of the sample batch. -/
theorem anchors_own_root_sample :
    let db := (run (relayStep sampleRelaySettings) (.initial sampleCompanies sampleTariffs)
      (sampleCompleted ++ [.worker 0 (.deliver (sampleAnchoring fun root => root) "")])).platform.db
    ∃ a ∈ db.auditEvents.rows, a.action = "batch.anchored" ∧
      ∃ b ∈ db.stampBatches.rows, a.targetId = b.id.str ∧ stampCount db b.id = b.requestedCount := by
  have helsewhere : ∀ e ∈ sampleCompleted ++ [.worker 0 (.deliver (sampleAnchoring fun root => root) "")],
      anchorsNothing e := by
    intro e he
    rcases List.mem_append.mp he with he | he
    · exact (sampleCompleted_echoes (.initial sampleCompanies sampleTariffs) e he).1
    · rw [List.mem_singleton.mp he]
      trivial
  have hechoes : Along (relayStep sampleRelaySettings) echoesRoot (.initial sampleCompanies sampleTariffs)
      (sampleCompleted ++ [.worker 0 (.deliver (sampleAnchoring fun root => root) "")]) := by
    rw [along_append]
    refine ⟨?_, ?_, trivial⟩
    · rw [along_iff]
      rintro before e after hsplit
      exact (sampleCompleted_echoes _ e (hsplit ▸ List.mem_append_right _ (List.mem_cons_self ..))).2
    · exact fun w hw message hmessage batchId root response answered hroot hresponse hanswered =>
        sampleNotary_echoes hresponse hanswered
  have hown := anchors_own_root_of_echoes sampleRelaySettings sampleCompanies sampleTariffs _ helsewhere hechoes
  have hdelivered := sampleCompleted_anchored.1
  rw [run_concat] at hown ⊢
  generalize run (relayStep sampleRelaySettings) (.initial sampleCompanies sampleTariffs) sampleCompleted = s at *
  obtain ⟨db, hdb, hrecorded⟩ := (Option.any_eq_true _ _).mp hdelivered
  obtain ⟨a, ha, haction⟩ := List.any_eq_true.mp hrecorded
  have hstep := @Relay.relayStep_anchorDelivered _ _ sampleRelaySettings s _ _ hdb ""
  rw [hstep] at hown ⊢
  obtain ⟨b, hb, htarget, hcount, -⟩ := hown a ha (of_decide_eq_true haction)
  exact ⟨a, ha, of_decide_eq_true haction, b, hb, htarget, hcount⟩

/-- A service that answers with another root has it recorded as that of the sample batch. -/
theorem not_anchors_own_root :
    let db := (run (relayStep sampleRelaySettings) (.initial sampleCompanies sampleTariffs)
      (sampleCompleted ++ [.worker 0 (.deliver (sampleAnchoring fun _ => "00") "")])).platform.db
    ¬∀ a ∈ db.auditEvents.rows, a.action = "batch.anchored" →
      ∃ b ∈ db.stampBatches.rows, a.targetId = b.id.str ∧ stampCount db b.id = b.requestedCount ∧
        ∃ state root, a.afterState = some state ∧ requireStr state "merkle_root" = .ok root ∧
          merkleRoot sampleRelaySettings.crypto (batchSerials db b.id) = .ok root := by
  intro db hown
  have hdelivered := sampleCompleted_anchored.2
  have hdb : db = (run (relayStep sampleRelaySettings) (.initial sampleCompanies sampleTariffs)
      (sampleCompleted ++ [.worker 0 (.deliver (sampleAnchoring fun _ => "00") "")])).platform.db := rfl
  rw [run_concat] at hdb
  clear_value db
  generalize run (relayStep sampleRelaySettings) (.initial sampleCompanies sampleTariffs) sampleCompleted = s at *
  obtain ⟨db₁, hsome, hfacts⟩ := (Option.any_eq_true _ _).mp hdelivered
  have hstep : db = db₁ := hdb.trans (@Relay.relayStep_anchorDelivered _ _ sampleRelaySettings s _ _ hsome "")
  rw [← hstep, Bool.and_eq_true] at hfacts
  obtain ⟨hrecorded, hroots⟩ := hfacts
  obtain ⟨a, ha, hanchored⟩ := List.any_eq_true.mp hrecorded
  simp only [Bool.and_eq_true, decide_eq_true_eq] at hanchored
  obtain ⟨b, hb, -, -, state, root, hstate, hroot, hmerkle⟩ := hown a ha hanchored.1
  have hother := of_decide_eq_true (List.all_eq_true.mp hroots b hb)
  rw [hstate, Option.bind_some, hroot] at hanchored
  obtain rfl : root = "00" := Option.some.inj hanchored.2
  exact hother (Except.toOption_eq_some.mpr hmerkle)

end TaxStamp
