import TaxStamp.Anchoring
import TaxStamp.Intake
import TaxStamp.Lib.Refuses

/-!
# Requests that can be answered

A delivery that raises is tried again and in the end dead-lettered. A message that its own
handler cannot take would be lost that way, with nobody outside to blame. There is none:
every message is of a kind that has a handler, its payload names what it is about as the
handler reads it, and that is there for as long as the message is. So a delivery fails only
for what happens outside: the work that the handler runs on its own, the anchoring service,
the audit event it writes, or the publication.
-/

namespace TaxStamp

open Lib

variable {settings : Settings} {db db' : Db}

/-- The database holds what a message is about, and the payload names it as the handler of its kind reads it. -/
inductive OutboxMessage.Answerable (db : Db) (m : OutboxMessage) : Prop
  | stamps (order : Order) (horder : order ∈ db.orders.rows) (hpaid : order.status.isPaid = true)
      (htype : m.eventType = "order.issue_stamps") (horderId : requireStr m.payload "order_id" = .ok order.id.str)
  | anchoring (batch : StampBatch) (root : String) (hbatch : batch ∈ db.stampBatches.rows)
      (htype : m.eventType = "batch.anchor_requested") (hbatchId : requireStr m.payload "batch_id" = .ok batch.id.str)
      (hroot : requireStr m.payload "merkle_root" = .ok root)
  | payment (order : Order) (horder : order ∈ db.orders.rows) (htype : m.eventType = "order.awaiting_payment")
      (horderId : m.payload.lookup "order_id" = some (.str order.id.str))
  | review (receipt : PaymentReceipt) (expected received : ℤ) (hreceipt : receipt ∈ db.paymentReceipts.rows)
      (htype : m.eventType = "payment.mismatch_requires_review")
      (hexpected : requireInt m.payload "expected_minor" = .ok expected)
      (hreceived : requireInt m.payload "amount_minor" = .ok received) (horderId : m.payload.lookup "order_id" = none)
      (hreceiptId : requireStr m.payload "receipt_id" = .ok receipt.id.str)
  | transfer (intent : TigerBeetleLedgerIntent) (hintent : intent ∈ db.tigerbeetleLedgerIntents.rows)
      (htype : m.eventType = "tigerbeetle.transfer_requested")
      (hintentId : requireStr m.payload "intent_id" = .ok intent.id.str)

/-! ### What messages are about stays there -/

/-- What messages can be about is still there: paid orders are still paid, and nothing is renamed. -/
structure Db.Keeps (db db' : Db) : Prop where
  orders : ∀ o ∈ db.orders.rows, ∃ o' ∈ db'.orders.rows, o'.id = o.id ∧
    (o.status.isPaid = true → o'.status.isPaid = true)
  batches : ∀ b ∈ db.stampBatches.rows, ∃ b' ∈ db'.stampBatches.rows, b'.id = b.id
  receipts : ∀ r ∈ db.paymentReceipts.rows, r ∈ db'.paymentReceipts.rows
  intents : ∀ i ∈ db.tigerbeetleLedgerIntents.rows, ∃ i' ∈ db'.tigerbeetleLedgerIntents.rows, i'.id = i.id

/-- Writing elsewhere keeps what messages are about. -/
theorem Db.Keeps.of_eq (hO : db'.orders = db.orders) (hB : db'.stampBatches = db.stampBatches)
    (hR : db'.paymentReceipts = db.paymentReceipts)
    (hI : db'.tigerbeetleLedgerIntents = db.tigerbeetleLedgerIntents) : db.Keeps db' where
  orders o ho := ⟨o, by rwa [hO], rfl, id⟩
  batches b hb := ⟨b, by rwa [hB], rfl⟩
  receipts r hr := by rwa [hR]
  intents i hi := ⟨i, by rwa [hI], rfl⟩

/-- A message with the same label can still be answered. -/
theorem OutboxMessage.Answerable.keep {m m' : OutboxMessage} (h : m.Answerable db) (hkeeps : db.Keeps db')
    (hlabel : m.SameLabel m') : m'.Answerable db' := by
  cases h with
  | stamps order horder hpaid htype horderId =>
    obtain ⟨order', horder', hid, hstill⟩ := hkeeps.orders order horder
    rw [← hid, ← hlabel.payload] at horderId
    exact .stamps order' horder' (hstill hpaid) (hlabel.eventType.trans htype) horderId
  | anchoring batch root hbatch htype hbatchId hroot =>
    obtain ⟨batch', hbatch', hid⟩ := hkeeps.batches batch hbatch
    rw [← hid, ← hlabel.payload] at hbatchId
    rw [← hlabel.payload] at hroot
    exact .anchoring batch' root hbatch' (hlabel.eventType.trans htype) hbatchId hroot
  | payment order horder htype horderId =>
    obtain ⟨order', horder', hid, -⟩ := hkeeps.orders order horder
    rw [← hid, ← hlabel.payload] at horderId
    exact .payment order' horder' (hlabel.eventType.trans htype) horderId
  | review receipt expected received hreceipt htype hexpected hreceived horderId hreceiptId =>
    rw [← hlabel.payload] at hexpected hreceived horderId hreceiptId
    exact .review receipt expected received (hkeeps.receipts receipt hreceipt) (hlabel.eventType.trans htype) hexpected
      hreceived horderId hreceiptId
  | transfer intent hintent htype hintentId =>
    obtain ⟨intent', hintent', hid⟩ := hkeeps.intents intent hintent
    rw [← hid, ← hlabel.payload] at hintentId
    exact .transfer intent' hintent' (hlabel.eventType.trans htype) hintentId

/-- No transaction removes or renames a batch. -/
theorem Change.keepsBatches {s : Platform} {e : Event} (h : Change settings s e db') :
    ∀ b ∈ s.db.stampBatches.rows, ∃ b' ∈ db'.stampBatches.rows, b'.id = b.id := by
  intro b hb
  cases h with
  | sameCore _ _ hsame => exact ⟨b, by rwa [hsame.stampBatches], rfl⟩
  | submitted => exact ⟨b, hb, rfl⟩
  | decided draws actor command now key order P db₁ A horder hid hstatus hrole hsubmitter hfirst hP heffect =>
    cases heffect <;> exact ⟨b, hb, rfl⟩
  | cancelled => exact ⟨b, hb, rfl⟩
  | ingested _ _ _ _ heffect => cases heffect <;> exact ⟨b, hb, rfl⟩
  | issued _ _ _ _ _ heffect =>
    cases heffect with
    | chunk order batch base added complete f O T B C S M A horder hid hstatus hbatch hbase hadded hcount hcomplete hf
        hO hT hB =>
      have hmem : b ∈ base := by
        obtain ⟨-, rfl⟩ | ⟨-, -, rfl⟩ := hbase
        · exact hb
        · exact List.mem_append_left _ hb
      change ∃ b' ∈ B.rows, b'.id = b.id
      rw [hB]
      have himage := List.mem_map_of_mem (f := fun b => if b.id = batch.id then f b else b) hmem
      refine ⟨_, himage, ?_⟩
      split
      · exact hf.id b
      · rfl
  | inspected _ _ _ _ _ heffect =>
    cases heffect with
    | inspected batch inspection g N S V B A hbatch hstatus hinspection hfirst hN hg hactive hS hB =>
      change ∃ b' ∈ B.rows, b'.id = b.id
      rw [hB]
      refine ⟨_, List.mem_map_of_mem hb, ?_⟩
      split <;> rfl
  | activated _ _ _ _ _ _ _ _ heffect =>
    cases heffect
    exact ⟨b, hb, rfl⟩
  | retired _ _ heffect =>
    cases heffect
    exact ⟨b, hb, rfl⟩

/-- No transaction removes or renames a ledger intent. -/
theorem step_keepsIntents (settings : Settings) (s : Platform) (e : Event) :
    ∀ i ∈ s.db.tigerbeetleLedgerIntents.rows, ∃ i' ∈ (step settings s e).db.tigerbeetleLedgerIntents.rows,
      i'.id = i.id := by
  intro i hi
  have hkept : ∃ i' ∈ (step settings s e).db.tigerbeetleLedgerIntents.rows, i.Advances i' := by
    by_cases hwork : ∃ work, e = .ledgerWork work
    · obtain ⟨work, rfl⟩ := hwork
      exact (work.commit_outcome settings s.db).intentsAdvance.kept i hi
    · exact (step_intentsAdvance settings s e (not_exists.mp hwork)).kept i hi
  obtain ⟨i', hi', hadvances⟩ := hkept
  exact ⟨i', hi', hadvances.id⟩

/-- Every transaction keeps what messages are about. -/
theorem step_keeps (settings : Settings) (s : Platform) (e : Event) : s.db.Keeps (step settings s e).db where
  orders o ho := by
    obtain ⟨o', ho', hmoved⟩ := (step_change settings s e).orderStep.persists ho
    exact ⟨o', ho', hmoved.id, hmoved.isPaid⟩
  batches := (step_change settings s e).keepsBatches
  receipts := (step_change settings s e).keepsPayments.receipts
  intents := step_keepsIntents settings s e

/-! ### What is asked for is there -/

/-- Every message of the new outbox is an old one, or about something that the database holds. -/
def AsksFor (db db' : Db) : Prop :=
  ∀ m ∈ db'.outboxMessages.rows, (∃ old ∈ db.outboxMessages.rows, old.SameLabel m) ∨ m.Answerable db'

/-- A transaction that leaves the outbox alone asks for nothing. -/
theorem AsksFor.of_eq (h : db'.outboxMessages = db.outboxMessages) : AsksFor db db' := by
  intro m hm
  rw [h] at hm
  exact .inl ⟨m, hm, rfl, rfl, rfl, rfl⟩

/-- Rewriting messages under their labels asks for nothing. -/
theorem AsksFor.of_map {f : OutboxMessage → OutboxMessage} (h : db'.outboxMessages.rows = db.outboxMessages.rows.map f)
    (hlabel : ∀ m : OutboxMessage, m.SameLabel (f m)) : AsksFor db db' := by
  intro m' hm'
  rw [h] at hm'
  obtain ⟨m, hm, rfl⟩ := List.mem_map.mp hm'
  exact .inl ⟨m, hm, hlabel m⟩

/-- A recorded message is asked for. -/
theorem AsksFor.of_enqueued {message : OutboxMessage}
    (h : Enqueued db.outboxMessages.rows message db'.outboxMessages.rows) (hmessage : message.Answerable db') :
    AsksFor db db' := by
  intro m hm
  obtain hrows | ⟨hrows, -⟩ := h
  · rw [hrows] at hm
    rcases List.mem_append.mp hm with hold | hnew
    · exact .inl ⟨m, hold, rfl, rfl, rfl, rfl⟩
    · rw [List.mem_singleton.mp hnew]
      exact .inr hmessage
  · rw [hrows] at hm
    exact .inl ⟨m, hm, rfl, rfl, rfl, rfl⟩

/-- What a part of a transaction asks for is there when the transaction ends. -/
theorem AsksFor.within {db₁ db₂ : Db} (h : AsksFor db₁ db₂) (hbefore : db₁.outboxMessages = db.outboxMessages)
    (hafter : db'.outboxMessages = db₂.outboxMessages) (hkeeps : db₂.Keeps db') : AsksFor db db' := by
  intro m hm
  rw [hafter] at hm
  rcases h m hm with hold | hnew
  · rw [hbefore] at hold
    exact .inl hold
  · exact .inr (hnew.keep hkeeps ⟨rfl, rfl, rfl, rfl⟩)

/-- Opening a payment announces it. -/
theorem openPayment_asks {draws : Draws} {order opened : Order} {actor : Actor} {now : Time}
    (horder : order ∈ db.orders.rows) (h : openPayment draws order actor now db = .ok (opened, db')) :
    AsksFor db db' := by
  simp only [openPayment, Tx.bind_ok, insertRow_ok, Tx.pure_ok] at h
  obtain ⟨approved, db₁, happroved, awaiting, db₂, hawaiting, -, db₃, ⟨I, -, rfl⟩, result, db₄, henqueue, -, rfl⟩ := h
  obtain ⟨-, rfl, O₁, T₁, hO₁, -, rfl⟩ := transition_ok happroved
  obtain ⟨-, rfl, O, T, hO, -, rfl⟩ := transition_ok hawaiting
  obtain ⟨M, hM, rfl⟩ := enqueue_ok henqueue
  refine .of_enqueued hM (.payment (order.withStatus .awaitingPayment now) ?_ rfl rfl)
  change _ ∈ O.rows
  rw [hO]
  change _ ∈ moveOrder order.id .awaitingPayment now O₁.rows
  rw [hO₁, moveOrder_moveOrder]
  exact mem_moveOrder.mpr ⟨order, horder, .inl ⟨rfl, rfl⟩⟩

/-- A decision that opens a payment announces it. -/
theorem decideApproval_asks {draws : Draws} {actor : Actor} {command : ApprovalCommand} {now : Time}
    {idempotencyKey : Option String} {result : Order}
    (h : decideApproval settings draws actor command now idempotencyKey db = .ok (result, db')) : AsksFor db db' := by
  simp only [decideApproval, Tx.bind_ok, Actor.requireRole_ok, fetch_ok, Tx.require_ok, selectAll_ok, insertRow_ok] at h
  obtain ⟨-, db₁, ⟨-, rfl⟩, order, db₂, ⟨hfetch, rfl⟩, -, db₃, ⟨-, rfl⟩, -, db₄, ⟨-, rfl⟩, existing, db₅, ⟨-, rfl⟩, -,
    db₆, ⟨-, rfl⟩, -, db₇, ⟨-, rfl⟩, -, db₈, ⟨P, -, rfl⟩, ⟨moved, created⟩, db₉, happly, hrest⟩ := h
  simp only [Tx.pure_ok] at hrest
  obtain ⟨event, db₁₀, haudit, -, rfl⟩ := hrest
  obtain ⟨A, -, rfl⟩ := recordAuditEvent_ok haudit
  have horder : order ∈ db.orders.rows := (mem_of_filter_eq_singleton hfetch).1
  cases hdecision : command.decision with
  | rejected =>
    simp only [applyDecision, hdecision, Tx.bind_ok, Tx.pure_ok] at happly
    obtain ⟨moved, db₁, hmoved, -, rfl⟩ := happly
    obtain ⟨-, -, O, T, -, -, rfl⟩ := transition_ok hmoved
    exact .of_eq rfl
  | approved =>
    simp only [applyDecision, hdecision, Tx.bind_ok, selectAll_ok] at happly
    obtain ⟨approvals, db₁, ⟨-, rfl⟩, hrest⟩ := happly
    split at hrest
    · simp only [Tx.bind_ok, Tx.pure_ok] at hrest
      obtain ⟨opened, db₂, hopened, -, rfl⟩ := hrest
      have hpart : AsksFor (Tables.approvals.set P db) db₂ := openPayment_asks horder hopened
      exact hpart.within rfl rfl (.of_eq rfl rfl rfl rfl)
    · obtain ⟨-, rfl⟩ := Tx.pure_ok.mp hrest
      exact .of_eq rfl

/-- Quarantined funds are announced for review. -/
theorem quarantineFunds_asks {draws : Draws} {intent : PaymentIntent} {receipt : PaymentReceipt} {advice : RemittanceAdvice}
    {now : Time} {u : Unit} (hreceipt : receipt ∈ db.paymentReceipts.rows)
    (h : quarantineFunds draws intent receipt advice now db = .ok (u, db')) : AsksFor db db' := by
  simp only [quarantineFunds, Tx.bind_ok, Tx.lift_ok, Tx.pure_ok] at h
  obtain ⟨postings, db₁, ⟨-, rfl⟩, journal, db₂, hpost, announced, db₃, henqueue, -, rfl⟩ := h
  obtain ⟨currency, J, E, -, -, -, -, rfl⟩ := postJournal_ok hpost
  obtain ⟨M, hM, rfl⟩ := enqueue_ok henqueue
  exact .of_enqueued hM (.review receipt intent.amountMinor advice.amountMinor hreceipt rfl rfl rfl rfl rfl)

/-- A settled payment asks for the stamps of its order. -/
theorem settleIntent_asks {draws : Draws} {intent : PaymentIntent} {receipt : PaymentReceipt} {now : Time} {result : Order}
    (h : settleIntent draws intent receipt now db = .ok (result, db')) : AsksFor db db' := by
  obtain ⟨order, O, T, I, J, E, M, horder, -, -, hO, -, -, -, -, -, -, hannounced, rfl⟩ := settleIntent_ok h
  obtain ⟨aggregateType, aggregateId, availableAt, henqueued⟩ := hannounced
  refine .of_enqueued henqueued (.stamps (order.withStatus .paid now) ?_ rfl rfl rfl)
  change _ ∈ O.rows
  rw [hO]
  exact mem_moveOrder.mpr ⟨order, horder, .inl ⟨rfl, rfl⟩⟩

/-- A receipt asks for what follows from its classification. -/
theorem applyReceipt_asks {draws : Draws} {intent : Option PaymentIntent} {receipt : PaymentReceipt}
    {advice : RemittanceAdvice} {now : Time} {orderId : Option Uuid} (hreceipt : receipt ∈ db.paymentReceipts.rows)
    (h : applyReceipt draws intent receipt advice now db = .ok (orderId, db')) : AsksFor db db' := by
  cases intent with
  | none =>
    cases hstatus : receipt.status <;> simp only [applyReceipt, hstatus, Tx.pure_ok] at h <;> exact .of_eq (by rw [h.2])
  | some intent =>
    cases hstatus : receipt.status with
    | matched =>
      simp only [applyReceipt, hstatus, Tx.bind_ok, Tx.pure_ok] at h
      obtain ⟨order, db₁, hsettle, -, rfl⟩ := h
      exact settleIntent_asks hsettle
    | amountMismatch =>
      simp only [applyReceipt, hstatus, Tx.bind_ok, Tx.pure_ok] at h
      obtain ⟨u, db₁, hquarantine, -, rfl⟩ := h
      exact quarantineFunds_asks hreceipt hquarantine
    | _ =>
      simp only [applyReceipt, hstatus, Tx.pure_ok] at h
      exact .of_eq (by rw [h.2])

/-- A remittance asks for what follows from it. -/
theorem ingestRemittance_asks {draws : Draws} {advice : RemittanceAdvice} {now : Time} {result : IngestResult}
    (h : ingestRemittance settings draws advice now db = .ok (result, db')) : AsksFor db db' := by
  simp only [ingestRemittance, Tx.bind_ok] at h
  obtain ⟨existing, db₁, hselect, hrest⟩ := h
  cases existing with
  | some receipt =>
    obtain ⟨-, rfl⟩ := selectOne_some.mp hselect
    obtain rfl := replayIngest_ok hrest
    exact .of_eq rfl
  | none =>
    obtain ⟨-, rfl⟩ := selectOne_none.mp hselect
    simp only [ingestNew, Tx.bind_ok, Tx.lift_ok, insertRow_ok, Tx.pure_ok] at hrest
    obtain ⟨intent, db₁, hintent, payloadHash, db₂, ⟨-, rfl⟩, valueDate, db₃, ⟨-, rfl⟩, -, db₄, ⟨R, hR, rfl⟩, orderId,
      db₅, happly, event, db₆, haudit, -, rfl⟩ := hrest
    obtain rfl : db = db₁ := by
      cases intent with
      | none => exact (selectOne_none.mp hintent).2
      | some intent => exact (selectOne_some.mp hintent).2
    obtain ⟨A, -, rfl⟩ := recordAuditEvent_ok haudit
    have hpart : AsksFor (Tables.paymentReceipts.set R db) db₅ := by
      refine applyReceipt_asks ?_ happly
      change _ ∈ R.rows
      rw [hR]
      exact List.mem_append_right _ (List.mem_singleton_self _)
    exact hpart.within rfl rfl (.of_eq rfl rfl rfl rfl)

/-- A new ledger intent asks for its transfer. -/
theorem createLedgerIntent_asks {draws : Draws} {request : LedgerIntentRequest} {now : Time} {actor : AuditActor}
    {result : TigerBeetleLedgerIntent}
    (h : createLedgerIntent settings draws request now actor db = .ok (result, db')) : AsksFor db db' := by
  simp only [createLedgerIntent, Tx.bind_ok, Tx.lift_ok, fetch_ok, Tx.require_ok] at h
  obtain ⟨checked, db₁, ⟨-, rfl⟩, payment, db₂, ⟨-, rfl⟩, -, db₃, ⟨-, rfl⟩, -, db₄, ⟨-, rfl⟩, payloadHash, db₅,
    ⟨-, rfl⟩, existing, db₆, hfind, hrest⟩ := h
  obtain rfl := findLedgerIntent_ok hfind
  cases existing with
  | some intent =>
    obtain rfl := reuseLedgerIntent_ok hrest
    exact .of_eq rfl
  | none =>
    simp only [Tx.bind_ok] at hrest
    obtain ⟨⟨intent, created⟩, db₇, hinsert, hrest⟩ := hrest
    rcases insertLedgerIntent_ok hinsert with ⟨rfl, rfl, L, hL, rfl⟩ | ⟨rfl, rfl⟩
    · simp only [if_true, Tx.bind_ok, Tx.pure_ok, announceLedgerIntent] at hrest
      obtain ⟨u, db₈, ⟨announced, db₉, henqueue, event, db₁₀, haudit, -, rfl⟩, -, rfl⟩ := hrest
      obtain ⟨M, hM, rfl⟩ := enqueue_ok henqueue
      obtain ⟨A, -, rfl⟩ := recordAuditEvent_ok haudit
      refine .of_enqueued hM (.transfer _ ?_ rfl rfl)
      change _ ∈ L.rows
      rw [hL]
      exact List.mem_append_right _ (List.mem_singleton_self _)
    · simp only [Bool.false_eq_true, if_false, Tx.pure_ok] at hrest
      obtain ⟨-, rfl⟩ := hrest
      exact .of_eq rfl

/-- A chunk that completes a batch asks for its anchoring. -/
theorem issueOrderChunk_asksFor {draws : Draws} {orderId : Uuid} {chunkSize : ℤ} {now : Time} {progress : IssuanceProgress}
    (h : issueOrderChunk settings draws orderId chunkSize now db = .ok (progress, db')) : AsksFor db db' := by
  obtain ⟨batchId, hasks⟩ := issueOrderChunk_asks h
  intro m hm
  rcases hasks m hm with hold | ⟨root, hanchor, -⟩
  · exact .inl ⟨m, hold, rfl, rfl, rfl, rfl⟩
  · obtain ⟨order, batch, base, added, complete, f, O, T, B, C, S, M, A, -, -, -, -, hbase, -, -, -, hf, -, -, hB, -, -, -,
      -, -, hannounced, -, -⟩ := issueOrderChunk_ok h
    obtain ⟨-, payload, aggregateType, aggregateId, availableAt, hrows | ⟨hrows, -⟩⟩ | ⟨-, hrows⟩ := hannounced
    · change m ∈ M.rows at hm
      rw [hrows] at hm
      rcases List.mem_append.mp hm with hold | hnew
      · exact .inl ⟨m, hold, rfl, rfl, rfl, rfl⟩
      · obtain rfl := List.mem_singleton.mp hnew
        obtain rfl : batch.id = batchId := Uuid.str_injective ((String.append_right_inj _).mp hanchor.dedupeKey)
        have hmem : batch ∈ base := by
          obtain ⟨hfilter, rfl⟩ | ⟨-, -, rfl⟩ := hbase
          · exact (mem_of_filter_eq_singleton hfilter).1
          · exact List.mem_append_right _ (List.mem_singleton_self _)
        have hbatch : f batch ∈ B.rows := by
          rw [hB]
          exact List.mem_map.mpr ⟨batch, hmem, if_pos rfl⟩
        have hbatchId := hanchor.batchId
        rw [← hf.id] at hbatchId
        exact .inr (.anchoring (f batch) root hbatch rfl hbatchId hanchor.root)
    · change m ∈ M.rows at hm
      rw [hrows] at hm
      exact .inl ⟨m, hm, rfl, rfl, rfl, rfl⟩
    · change m ∈ M.rows at hm
      rw [hrows] at hm
      exact .inl ⟨m, hm, rfl, rfl, rfl, rfl⟩

/-- Every transaction asks only for what is there. -/
theorem Committed.asksFor {s : Platform} {e : Event} (h : Committed settings s e db') : AsksFor s.db db' := by
  cases h with
  | unchanged => exact .of_eq rfl
  | submitOrder h =>
    obtain ⟨draft, compliant, O, T, A, -, -, -, -, -, -, rfl⟩ := submitOrder_ok h
    exact .of_eq rfl
  | decideApproval h => exact decideApproval_asks h
  | cancelOrder h =>
    obtain ⟨order, O, T, A, -, -, -, -, -, -, -, rfl⟩ := cancelOrder_ok h
    exact .of_eq rfl
  | ingestRemittance h => exact ingestRemittance_asks h
  | issueChunk h => exact issueOrderChunk_asksFor h
  | recordInspection h =>
    cases recordInspection_ok h
    exact .of_eq rfl
  | activateStamps ha h =>
    cases activateStamps_ok h
    exact .of_eq rfl
  | voidStamps h =>
    cases voidStamps_ok h
    exact .of_eq rfl
  | expireDueStamps h =>
    cases expireDueStamps_ok h
    exact .of_eq rfl
  | createLedgerIntent h => exact createLedgerIntent_asks h
  | ledgerWork work => exact .of_eq (work.outbox settings s.db)
  | claimBatch h =>
    obtain ⟨candidates, M, -, hM, -, rfl⟩ := claimBatch_ok h
    refine .of_map hM fun m => ?_
    split <;> exact ⟨rfl, rfl, rfl, rfl⟩
  | markProcessed h =>
    obtain ⟨M, hM, rfl⟩ := markProcessed_ok h
    refine .of_map hM fun m => ?_
    split <;> exact ⟨rfl, rfl, rfl, rfl⟩
  | markFailed h =>
    obtain ⟨M, hM, -, rfl⟩ := markFailed_ok h
    refine .of_map hM fun m => ?_
    split <;> exact ⟨rfl, rfl, rfl, rfl⟩
  | recordAudit h =>
    obtain ⟨A, -, rfl⟩ := recordAuditEvent_ok h
    exact .of_eq rfl

/-- Every message can be answered. -/
def AllAnswerable (db : Db) : Prop := ∀ m ∈ db.outboxMessages.rows, m.Answerable db

/-- Every transaction keeps every message answerable. -/
theorem AllAnswerable.step (settings : Settings) (s : Platform) (e : Event) (h : AllAnswerable s.db) :
    AllAnswerable (step settings s e).db := by
  intro m hm
  rcases (step_committed settings s e).asksFor m hm with ⟨old, hold, hlabel⟩ | hnew
  · exact (h old hold).keep (step_keeps settings s e) hlabel
  · exact hnew

/-- Every message can be answered in every run of the platform. -/
theorem AllAnswerable.run (settings : Settings) (companies : Table companySchema) (tariffs : Table tariffSchema)
    (events : List Event) : AllAnswerable (Lib.run (TaxStamp.step settings) (.initial companies tariffs) events).db :=
  run_invariant (fun s : Platform => AllAnswerable s.db) (fun s e => AllAnswerable.step settings s e) _
    (fun _ hm => absurd hm List.not_mem_nil) events

/-! ### Deliveries -/

/-- What a delivery can be refused for: what happens outside it. -/
inductive DeliveryFault (settings : Settings) (delivery : RelayDelivery) (db : Db) (fault : Fault) : Prop
  | outside (h : delivery.outside = .error fault)
  | anchoring (batchId root : String) (h : anchor delivery.anchorClient batchId root = .error fault)
  | recording (record : AuditRecord) (h : recordAuditEvent settings delivery.draws (delivery.draws.uuid 0) systemWorker
      record (delivery.clock 0) db = .error fault)
  | publication (h : delivery.published = .error fault)

variable {delivery : RelayDelivery} {payload : JsonObject} {fault : Fault}

/-- A notification that names its target is refused only when its event cannot be recorded. -/
theorem handleNotify_error {target : String}
    (htarget : requireStr payload (if (payload.lookup "order_id").isSome then "order_id" else "receipt_id") = .ok target)
    (h : handleNotify settings delivery payload db = .error fault) : DeliveryFault settings delivery db fault := by
  rw [handleNotify, Tx.bind_lift _ htarget, Tx.bind_error] at h
  obtain h | ⟨event, db₁, -, h⟩ := h
  · exact .recording _ h
  · cases h

/-- A stored row is found by a condition that only rows of its key satisfy. -/
theorem fetch_of_mem {α : Type} {S : Schema α} {F : Field Db (Table S)} {p : α → Bool} {row : α} (hrow : row ∈ (F.get db).rows)
    (hp : p row = true) (hkey : ∀ r, p r = true → S.clash r row = true) (absent : Fault) :
    fetch F p absent db = .ok (row, db) :=
  fetch_ok.mpr ⟨(F.get db).filter_eq_singleton hrow hp fun r _ => hkey r, rfl⟩

/-- A stored batch is found under its identifier. -/
theorem fetch_batch {batch : StampBatch} (hbatch : batch ∈ db.stampBatches.rows) :
    fetch Tables.stampBatches (fun b => b.id = batch.id) .noResultFound db = .ok (batch, db) := by
  apply fetch_of_mem hbatch (by simp)
  intro b hsame
  simp [stampBatchSchema, of_decide_eq_true hsame]

/-- The handler of an answerable message is refused only for what happens outside. -/
theorem OutboxMessage.Answerable.handle_error {m : OutboxMessage} (hm : m.Answerable db)
    (h : handle settings delivery m.payload m.eventType db = .error fault) :
    DeliveryFault settings delivery db fault := by
  cases hm with
  | stamps order horder hpaid htype horderId =>
    rw [htype] at h
    change handleIssueStamps delivery m.payload db = .error fault at h
    rw [handleIssueStamps, Tx.bind_lift _ horderId, Tx.bind_lift _ (Uuid.parse_str order.id), Tx.lift_error] at h
    exact .outside h
  | anchoring batch root hbatch htype hbatchId hroot =>
    rw [htype] at h
    change handleAnchorBatch settings delivery m.payload db = .error fault at h
    rw [handleAnchorBatch, Tx.bind_lift _ hbatchId, Tx.bind_lift _ (Uuid.parse_str batch.id), Tx.bind_lift _ hroot,
      Tx.bind_error, Tx.lift_error] at h
    obtain h | ⟨receipt, db₁, hreceipt, h⟩ := h
    · exact .anchoring _ _ h
    · obtain ⟨-, rfl⟩ := Tx.lift_ok.mp hreceipt
      rw [Tx.bind_of_ok _ (fetch_batch hbatch), Tx.bind_error] at h
      obtain h | ⟨event, db₁, -, h⟩ := h
      · exact .recording _ h
      · cases h
  | payment order horder htype horderId =>
    rw [htype] at h
    change handleNotify settings delivery m.payload db = .error fault at h
    have htarget : requireStr m.payload "order_id" = .ok order.id.str := by
      rw [requireStr, JsonObject.getD, horderId]
      rfl
    have hchosen : requireStr m.payload
        (if (m.payload.lookup "order_id").isSome then "order_id" else "receipt_id") = .ok order.id.str := by
      rw [horderId]
      exact htarget
    exact handleNotify_error hchosen h
  | review receipt expected received hreceipt htype hexpected hreceived horderId hreceiptId =>
    rw [htype] at h
    change handleMismatchReview settings delivery m.payload db = .error fault at h
    rw [handleMismatchReview, Tx.bind_lift _ hexpected, Tx.bind_lift _ hreceived, Tx.bind_lift _ hreceiptId] at h
    have hchosen : requireStr m.payload
        (if (m.payload.lookup "order_id").isSome then "order_id" else "receipt_id") = .ok receipt.id.str := by
      rw [horderId]
      exact hreceiptId
    exact handleNotify_error hchosen h
  | transfer intent hintent htype hintentId =>
    rw [htype] at h
    change handleTigerbeetleTransfer delivery m.payload db = .error fault at h
    rw [handleTigerbeetleTransfer, Tx.bind_lift _ hintentId, Tx.bind_lift _ (Uuid.parse_str intent.id),
      Tx.lift_error] at h
    exact .outside h

/-- A delivery can always be recorded. -/
theorem markProcessed_total (messageId : Uuid) (now : Time) (db : Db) :
    ∃ db', markProcessed messageId now db = .ok ((), db') := by
  obtain ⟨M, hM⟩ : ∃ M : Table outboxMessageSchema, M.rows = db.outboxMessages.rows.map fun m =>
      if (decide (m.id = messageId)) = true then m.processed now else m := by
    refine Table.exists_map _ (fun m hm => ?_) (fun m _ => rfl) fun a b => ?_
    · split
      · have hfits := db.outboxMessages.valid.fits m hm
        simp only [outboxMessageSchema, Bool.and_eq_true] at hfits ⊢
        simp only [OutboxMessage.processed, Option.all_none, hfits]
      · rfl
    · simp only [outboxMessageSchema]
      split <;> split <;> rfl
  exact ⟨_, updateRows_ok.mpr ⟨M, hM, rfl⟩⟩

/-- A delivery of an answerable message is refused only for what happens outside. -/
theorem deliver_error {settings : RelaySettings} {message current : OutboxMessage} (hcurrent : current ∈ db.outboxMessages.rows)
    (hanswerable : current.Answerable db) (hlabel : message.SameLabel current)
    (h : deliver settings delivery message db = .error fault) : DeliveryFault settings.toSettings delivery db fault := by
  have hfetch : fetch Tables.outboxMessages (fun m => m.id = message.id) .noResultFound db = .ok (current, db) := by
    refine fetch_ok.mpr ⟨db.outboxMessages.filter_eq_singleton hcurrent (by simp [hlabel.id]) fun m _ hsame => ?_, rfl⟩
    simp only [decide_eq_true_eq] at hsame
    simp [outboxMessageSchema, hsame, hlabel.id]
  rw [deliver, Tx.bind_of_ok _ hfetch, Tx.bind_error] at h
  obtain h | ⟨u, db₁, -, h⟩ := h
  · rw [← hlabel.payload] at h
    exact hanswerable.handle_error h
  · simp only [Tx.bind_error, Tx.lift_error] at h
    obtain h | ⟨-, db₂, -, h⟩ := h
    · exact .publication h
    · obtain ⟨db₃, htotal⟩ := markProcessed_total message.id (delivery.clock 1) db₂
      rw [htotal] at h
      cases h

/-- What the workers of the relay hold can be delivered. -/
structure Relay.Deliverable (s : Relay) : Prop where
  answerable : AllAnswerable s.platform.db
  copies : s.Copies

/-- Every event keeps the messages deliverable. -/
theorem Relay.Deliverable.step (settings : RelaySettings) (s : Relay) (e : RelayEvent) (h : s.Deliverable) :
    (relayStep settings s e).Deliverable := by
  refine ⟨?_, Relay.Copies.step settings s e h.copies⟩
  cases e with
  | service e =>
    unfold relayStep
    dsimp only
    split
    · exact h.answerable
    · exact h.answerable.step settings.toSettings s.platform e
  | join workerId => exact h.answerable
  | worker index e =>
    unfold relayStep
    dsimp only
    split
    · exact h.answerable
    · rename_i w hw
      obtain ⟨events, hrun⟩ := relayOnce_platform settings s.platform w e
      rw [hrun]
      exact run_invariant (fun s : Platform => AllAnswerable s.db)
        (fun s e => AllAnswerable.step settings.toSettings s e) _ h.answerable events

/-- No message is poison. In every run of the services and any number of relay workers, every outbox message is of a kind
with a handler, and what it is about is in the database and named by its payload as that handler reads it; and whenever a
worker delivers a message it has claimed, in whatever state the database has come to since, the delivery raises only what
happens outside the message: the work that the handler runs on its own, the anchoring service, the recording of the audit
event, or the publication. -/
theorem no_poison_message (settings : RelaySettings) (companies : Table companySchema) (tariffs : Table tariffSchema)
    (events : List RelayEvent) :
    let s := run (relayStep settings) (.initial companies tariffs) events
    (∀ m ∈ s.outbox, m.Answerable s.platform.db) ∧
      ∀ w ∈ s.workers, ∀ message ∈ w.phase.messages, ∀ delivery fault,
        deliver settings delivery message s.platform.db = .error fault →
          DeliveryFault settings.toSettings delivery s.platform.db fault := by
  intro s
  have hs : s.Deliverable := by
    apply run_invariant Relay.Deliverable (fun s e h => h.step settings s e)
    exact ⟨fun _ hm => absurd hm List.not_mem_nil, fun _ hw => absurd hw List.not_mem_nil⟩
  constructor
  · exact hs.answerable
  · intro w hw message hmessage delivery fault hfault
    obtain ⟨current, hcurrent, hlabel⟩ := hs.copies w hw message hmessage
    exact deliver_error hcurrent (hs.answerable current hcurrent) hlabel hfault

end TaxStamp
