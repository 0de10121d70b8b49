import TaxStamp.Ledger
import TaxStamp.Orders

/-!
# Settlement ingestion and funds posting

A remittance is accepted once per external reference. It settles an intent only on the
exact amount and currency; the journal, the order's status and the request to issue its
stamps are written in the same transaction. Any other remittance for a known reference is
posted as an unapplied receipt.
-/

namespace TaxStamp

open Lib

/-- The actor of the ingestion. -/
def paymentIngestor : AuditActor := ⟨none, "system:payment-ingestor", "treasury", none⟩

/-- A remittance advice from the collecting bank. -/
structure RemittanceAdvice where
  externalReference : String
  declaredReference : String
  amountMinor : ℤ
  currency : String
  valueDate : Time
  raw : JsonObject

/-- What an ingestion reports. -/
structure IngestResult where
  receiptId : Uuid
  status : ReceiptStatus
  orderId : Option Uuid
  duplicate : Bool
  deriving DecidableEq, Repr

/-- How a remittance is classified against the intent it declares. -/
def classify (intent : Option PaymentIntent) (advice : RemittanceAdvice) : ReceiptStatus :=
  match intent with
  | none => .unknownReference
  | some i =>
    if i.amountMinor ≠ advice.amountMinor ∨ i.currency ≠ advice.currency ∨ i.status ≠ .awaitingPayment then
      .amountMismatch
    else .matched

/-- The answer to a remittance that was ingested before. -/
def replayIngest (existing : PaymentReceipt) : Session IngestResult := do
  match existing.paymentIntentId with
  | none => return ⟨existing.id, existing.status, none, true⟩
  | some intentId =>
    let intent ← fetch Tables.paymentIntents (fun i => i.id = intentId) .noResultFound
    return ⟨existing.id, existing.status, some intent.orderId, true⟩

/-- Answering a replay only reads. -/
theorem replayIngest_ok {existing : PaymentReceipt} {result : IngestResult} {db db' : Db}
    (h : replayIngest existing db = .ok (result, db')) : db = db' := by
  unfold replayIngest at h
  cases hintent : existing.paymentIntentId with
  | none =>
    simp only [hintent, Tx.pure_ok] at h
    exact h.2
  | some intentId =>
    simp only [hintent, Tx.bind_ok, fetch_ok, Tx.pure_ok] at h
    obtain ⟨intent, db₁, ⟨-, rfl⟩, -, rfl⟩ := h
    rfl

/-- An intent marked as settled. -/
def PaymentIntent.settle (intent : PaymentIntent) (now : Time) : PaymentIntent :=
  { intent with status := .settled, settledAt := some now }

/-- The postings of an exact settlement: the order's total against its duty and its VAT. -/
def settlementPostings (order : Order) : Except Fault (List Posting) := do
  let total ← Money.make order.totalMinor order.currency
  let debit ← Posting.make .bankCollections .debit total
  let subtotal ← Money.make order.subtotalMinor order.currency
  let duty ← Posting.make .dutyPayable .credit subtotal
  let vat ← Money.make order.vatMinor order.currency
  let vatCredit ← Posting.make .vatPayable .credit vat
  return [debit, duty, vatCredit]

/-- The entries of an exact settlement. -/
def settlementEntries (order : Order) (journalId : Uuid) (now : Time) : List LedgerEntry :=
  [⟨journalId, .bankCollections, .debit, order.totalMinor, order.currency, now⟩,
    ⟨journalId, .dutyPayable, .credit, order.subtotalMinor, order.currency, now⟩,
    ⟨journalId, .vatPayable, .credit, order.vatMinor, order.currency, now⟩]

/-- The postings of a settlement write its entries. -/
theorem settlementPostings_ok {order : Order} {postings : List Posting}
    (h : settlementPostings order = .ok postings) (journalId : Uuid) (now : Time) :
    postings.map (fun p => p.entry journalId now) = settlementEntries order journalId now ∧
      (currencyExponents.lookup order.currency).isSome = true := by
  simp only [settlementPostings, Except.bind_ok] at h
  obtain ⟨total, htotal, debit, hdebit, subtotal, hsubtotal, duty, hduty, vat, hvat, credit, hcredit, heq⟩ := h
  injection heq with heq
  subst heq
  refine ⟨?_, Money.supported_of_make htotal⟩
  simp [Posting.entry, settlementEntries, Posting.make_ok hdebit, Posting.make_ok hduty,
    Posting.make_ok hcredit, Money.make_ok.mp htotal, Money.make_ok.mp hsubtotal, Money.make_ok.mp hvat]

/-- Settle an intent with an exact remittance. -/
def settleIntent (draws : Draws) (intent : PaymentIntent) (receipt : PaymentReceipt) (now : Time) :
    Session Order := do
  let order ← fetch Tables.orders (fun o => o.id = intent.orderId) .noResultFound
  let order ← transition order .paid none ("settlement " ++ receipt.externalReference) now
  setRows Tables.paymentIntents (fun i => i.id = intent.id) fun i => i.settle now
  let postings ← Tx.lift (settlementPostings order)
  let _ ← postJournal (draws.uuid 1) ("settlement:" ++ receipt.externalReference) .dutySettlement postings now
    (some order.id) (some receipt.id)
  let _ ← enqueue (.pending (draws.uuid 2) "order" order.id "order.issue_stamps"
    ("order.issue_stamps:" ++ order.id.str)
    [("order_id", .str order.id.str), ("quantity", .int order.quantity)] now)
  return order

/-- The postings of a remittance that settles nothing. -/
def unappliedPostings (advice : RemittanceAdvice) : Except Fault (List Posting) := do
  let amount ← Money.make advice.amountMinor advice.currency
  let debit ← Posting.make .bankCollections .debit amount
  let credit ← Posting.make .unappliedReceipts .credit amount
  return [debit, credit]

/-- The entries of a remittance that settles nothing. -/
def unappliedEntries (advice : RemittanceAdvice) (journalId : Uuid) (now : Time) : List LedgerEntry :=
  [⟨journalId, .bankCollections, .debit, advice.amountMinor, advice.currency, now⟩,
    ⟨journalId, .unappliedReceipts, .credit, advice.amountMinor, advice.currency, now⟩]

/-- The postings of an unapplied receipt write its entries. -/
theorem unappliedPostings_ok {advice : RemittanceAdvice} {postings : List Posting}
    (h : unappliedPostings advice = .ok postings) (journalId : Uuid) (now : Time) :
    postings.map (fun p => p.entry journalId now) = unappliedEntries advice journalId now ∧
      (currencyExponents.lookup advice.currency).isSome = true := by
  simp only [unappliedPostings, Except.bind_ok] at h
  obtain ⟨amount, hamount, debit, hdebit, credit, hcredit, heq⟩ := h
  injection heq with heq
  subst heq
  refine ⟨?_, Money.supported_of_make hamount⟩
  simp [Posting.entry, unappliedEntries, Posting.make_ok hdebit, Posting.make_ok hcredit,
    Money.make_ok.mp hamount]

/-- Hold a mismatched remittance as an unapplied liability. -/
def quarantineFunds (draws : Draws) (intent : PaymentIntent) (receipt : PaymentReceipt)
    (advice : RemittanceAdvice) (now : Time) : Session Unit := do
  let postings ← Tx.lift (unappliedPostings advice)
  let _ ← postJournal (draws.uuid 1) ("unapplied:" ++ receipt.externalReference) .unappliedReceipt postings now
    none (some receipt.id)
  let _ ← enqueue (.pending (draws.uuid 2) "payment_receipt" receipt.id "payment.mismatch_requires_review"
    ("payment.mismatch:" ++ receipt.externalReference)
    [("receipt_id", .str receipt.id.str),
      ("declared_reference", .str advice.declaredReference),
      ("amount_minor", .int advice.amountMinor),
      ("expected_minor", .int intent.amountMinor)] now)
  return ()

/-- Post a new receipt according to its classification; the result names the order concerned. -/
def applyReceipt (draws : Draws) (intent : Option PaymentIntent) (receipt : PaymentReceipt)
    (advice : RemittanceAdvice) (now : Time) : Session (Option Uuid) :=
  match receipt.status, intent with
  | .matched, some i => do
    let order ← settleIntent draws i receipt now
    return some order.id
  | .amountMismatch, some i => do
    quarantineFunds draws i receipt advice now
    return some i.orderId
  | _, _ => return none

/-- The receipt of a remittance. -/
def newReceipt (receiptId : Uuid) (intent : Option PaymentIntent) (advice : RemittanceAdvice)
    (payloadHash : String) (now : Time) : PaymentReceipt where
  id := receiptId
  externalReference := advice.externalReference
  paymentIntentId := intent.map PaymentIntent.id
  declaredReference := advice.declaredReference
  amountMinor := advice.amountMinor
  currency := advice.currency
  status := classify intent advice
  payloadHash := payloadHash
  valueDate := advice.valueDate
  ingestedAt := now

/-- Record a remittance that has not been seen before. -/
def ingestNew (settings : Settings) (draws : Draws) (advice : RemittanceAdvice) (now : Time) :
    Session IngestResult := do
  let intent ← scalarOneOrNone Tables.paymentIntents fun i => i.reference = advice.declaredReference
  let payloadHash ← Tx.lift (canonicalHash settings.crypto advice.raw)
  let valueDate ← Tx.lift (ensureUtc advice.valueDate)
  let receipt := newReceipt (draws.uuid 0) intent { advice with valueDate := valueDate } payloadHash now
  addRow Tables.paymentReceipts receipt
  let orderId ← applyReceipt draws intent receipt advice now
  let _ ← recordAuditEvent settings draws (draws.uuid 3) paymentIngestor
    { action := "payment.ingest"
      targetType := "payment_receipt"
      targetId := receipt.id.str
      outcome := if receipt.status = .matched then .success else .failure
      afterState := some
        [("status", .str receipt.status.value),
          ("external_reference", .str advice.externalReference),
          ("amount_minor", .int advice.amountMinor),
          ("currency", .str advice.currency),
          ("order_id", .ofOption (orderId.map Uuid.str))] }
    now
  return ⟨receipt.id, receipt.status, orderId, false⟩

/-- Ingest a remittance advice. -/
def ingestRemittance (settings : Settings) (draws : Draws) (advice : RemittanceAdvice) (now : Time) :
    Session IngestResult := do
  let existing ← scalarOneOrNone Tables.paymentReceipts fun r =>
    r.externalReference = advice.externalReference
  match existing with
  | some receipt => replayIngest receipt
  | none => ingestNew settings draws advice now

/-- A journal whose postings write the given entries has their currency. -/
theorem currency_of_postings {postings : List Posting} {currency : String} {journalId : Uuid} {now : Time}
    {entries : List LedgerEntry} (hsole : soleCurrency postings = some currency)
    (hentries : postings.map (fun p => p.entry journalId now) = entries) :
    ∀ e ∈ entries, e.currency = currency := by
  rintro e he
  rw [← hentries, List.mem_map] at he
  obtain ⟨p, hp, rfl⟩ := he
  exact soleCurrency_some hsole p hp

/-- A settlement moves the order to paid, settles the intent and posts the order's amounts. -/
theorem settleIntent_ok {draws : Draws} {intent : PaymentIntent} {receipt : PaymentReceipt} {now : Time}
    {result : Order} {db db' : Db} (h : settleIntent draws intent receipt now db = .ok (result, db')) :
    ∃ (order : Order) (O : Table orderSchema) (T : Table orderTransitionSchema)
      (I : Table paymentIntentSchema) (J : Table journalSchema) (E : Table ledgerEntrySchema)
      (M : Table outboxMessageSchema),
      order ∈ db.orders.rows ∧ order.id = intent.orderId ∧ order.status = .awaitingPayment ∧
      O.rows = moveOrder order.id .paid now db.orders.rows ∧
      T.rows = db.orderTransitions.rows ++
        [⟨order.id, some order.status, .paid, none, "settlement " ++ receipt.externalReference, now⟩] ∧
      (I.rows = db.paymentIntents.rows.map fun i => if i.id = intent.id then i.settle now else i) ∧
      J.rows = db.journals.rows ++ [⟨draws.uuid 1, "settlement:" ++ receipt.externalReference,
        .dutySettlement, order.currency, some order.id, some receipt.id, now⟩] ∧
      E.rows = db.ledgerEntries.rows ++ settlementEntries order (draws.uuid 1) now ∧
      result.id = order.id ∧ (currencyExponents.lookup order.currency).isSome = true ∧
      Announced (draws.uuid 2) "order.issue_stamps" ("order.issue_stamps:" ++ order.id.str)
        [("order_id", .str order.id.str), ("quantity", .int order.quantity)] db.outboxMessages.rows M.rows ∧
      db' = Tables.outboxMessages.set M (Tables.ledgerEntries.set E (Tables.journals.set J
        (Tables.paymentIntents.set I (Tables.orderTransitions.set T (Tables.orders.set O db))))) := by
  simp only [settleIntent, Tx.bind_ok, fetch_ok, updateRows_ok, Tx.lift_ok, Tx.pure_ok] at h
  obtain ⟨order, db₁, ⟨hfetch, rfl⟩, moved, db₂, hmoved, -, db₃, ⟨I, hI, rfl⟩, postings, db₄,
    ⟨hpostings, rfl⟩, journal, db₅, hpost, announced, db₆, henqueue, rfl, rfl⟩ := h
  obtain ⟨hlegal, rfl, O, T, hO, hT, rfl⟩ := transition_ok hmoved
  obtain ⟨currency, J, E, hsole, -, hJ, hE, rfl⟩ := postJournal_ok hpost
  obtain ⟨M, hM, rfl⟩ := enqueue_ok henqueue
  obtain ⟨hmem, hid⟩ := mem_of_filter_eq_singleton hfetch
  obtain ⟨hentries, hsupported⟩ := settlementPostings_ok hpostings (draws.uuid 1) now
  have hcurrency : order.currency = currency :=
    currency_of_postings hsole hentries _ (List.mem_cons_self ..)
  rw [← hcurrency] at hJ
  rw [hentries] at hE
  simp only [decide_eq_true_eq] at hI
  exact ⟨order, O, T, I, J, E, M, hmem, by simpa using hid, paid_mem_orderTransitions.mp hlegal, hO, hT, hI, hJ,
    hE, rfl, hsupported, ⟨_, _, _, hM⟩, rfl⟩

/-- A quarantined remittance is posted as an unapplied receipt. -/
theorem quarantineFunds_ok {draws : Draws} {intent : PaymentIntent} {receipt : PaymentReceipt}
    {advice : RemittanceAdvice} {now : Time} {u : Unit} {db db' : Db}
    (h : quarantineFunds draws intent receipt advice now db = .ok (u, db')) :
    ∃ (J : Table journalSchema) (E : Table ledgerEntrySchema) (M : Table outboxMessageSchema),
      J.rows = db.journals.rows ++ [⟨draws.uuid 1, "unapplied:" ++ receipt.externalReference,
        .unappliedReceipt, advice.currency, none, some receipt.id, now⟩] ∧
      E.rows = db.ledgerEntries.rows ++ unappliedEntries advice (draws.uuid 1) now ∧
      (currencyExponents.lookup advice.currency).isSome = true ∧
      (∃ payload, Announced (draws.uuid 2) "payment.mismatch_requires_review"
        ("payment.mismatch:" ++ receipt.externalReference) payload db.outboxMessages.rows M.rows) ∧
      db' = Tables.outboxMessages.set M (Tables.ledgerEntries.set E (Tables.journals.set J db)) := by
  simp only [quarantineFunds, Tx.bind_ok, Tx.lift_ok, Tx.pure_ok] at h
  obtain ⟨postings, db₁, ⟨hpostings, rfl⟩, journal, db₂, hpost, announced, db₃, henqueue, -, rfl⟩ := h
  obtain ⟨currency, J, E, hsole, -, hJ, hE, rfl⟩ := postJournal_ok hpost
  obtain ⟨M, hM, rfl⟩ := enqueue_ok henqueue
  obtain ⟨hentries, hsupported⟩ := unappliedPostings_ok hpostings (draws.uuid 1) now
  have hcurrency : advice.currency = currency :=
    currency_of_postings hsole hentries _ (List.mem_cons_self ..)
  rw [← hcurrency] at hJ
  rw [hentries] at hE
  exact ⟨J, E, M, hJ, hE, hsupported, ⟨_, _, _, _, hM⟩, rfl⟩

/-- What a committed ingestion does. A receipt seen before changes nothing; an unknown reference
leaves only its receipt; a mismatch is posted as unapplied; an exact payment settles its order. -/
inductive IngestEffect (settings : Settings) (draws : Draws) (advice : RemittanceAdvice) (now : Time) (db : Db) : Db → Prop
  | replayed (receipt : PaymentReceipt) (hmem : receipt ∈ db.paymentReceipts.rows)
      (hreference : receipt.externalReference = advice.externalReference) :
      IngestEffect settings draws advice now db db
  | unknown (payloadHash : String) (R : Table paymentReceiptSchema) (A : Table auditEventSchema)
      (hR : R.rows = db.paymentReceipts.rows ++ [newReceipt (draws.uuid 0) none advice payloadHash now])
      (hA : Audited settings db.auditEvents.rows A.rows) :
      IngestEffect settings draws advice now db (Tables.auditEvents.set A (Tables.paymentReceipts.set R db))
  | mismatched (intent : PaymentIntent) (payloadHash : String) (R : Table paymentReceiptSchema)
      (J : Table journalSchema) (E : Table ledgerEntrySchema) (M : Table outboxMessageSchema)
      (A : Table auditEventSchema)
      (hintent : intent ∈ db.paymentIntents.rows)
      (hstatus : classify (some intent) advice = .amountMismatch)
      (hR : R.rows = db.paymentReceipts.rows ++
        [newReceipt (draws.uuid 0) (some intent) advice payloadHash now])
      (hJ : J.rows = db.journals.rows ++ [⟨draws.uuid 1, "unapplied:" ++ advice.externalReference,
        .unappliedReceipt, advice.currency, none, some (draws.uuid 0), now⟩])
      (hE : E.rows = db.ledgerEntries.rows ++ unappliedEntries advice (draws.uuid 1) now)
      (hsupported : (currencyExponents.lookup advice.currency).isSome = true)
      (hM : OutboxGrows db.outboxMessages.rows M.rows)
      (hannounced : ∃ payload, Announced (draws.uuid 2) "payment.mismatch_requires_review"
        ("payment.mismatch:" ++ advice.externalReference) payload db.outboxMessages.rows M.rows)
      (hA : Audited settings db.auditEvents.rows A.rows) :
      IngestEffect settings draws advice now db (Tables.auditEvents.set A (Tables.outboxMessages.set M
        (Tables.ledgerEntries.set E (Tables.journals.set J (Tables.paymentReceipts.set R db)))))
  | settled (intent : PaymentIntent) (order : Order) (payloadHash : String) (R : Table paymentReceiptSchema)
      (O : Table orderSchema) (T : Table orderTransitionSchema) (I : Table paymentIntentSchema)
      (J : Table journalSchema) (E : Table ledgerEntrySchema) (M : Table outboxMessageSchema)
      (A : Table auditEventSchema)
      (hintent : intent ∈ db.paymentIntents.rows)
      (hstatus : classify (some intent) advice = .matched)
      (horder : order ∈ db.orders.rows) (hid : order.id = intent.orderId)
      (hawaiting : order.status = .awaitingPayment)
      (hR : R.rows = db.paymentReceipts.rows ++
        [newReceipt (draws.uuid 0) (some intent) advice payloadHash now])
      (hO : O.rows = moveOrder order.id .paid now db.orders.rows)
      (hT : T.rows = db.orderTransitions.rows ++
        [⟨order.id, some order.status, .paid, none, "settlement " ++ advice.externalReference, now⟩])
      (hI : I.rows = db.paymentIntents.rows.map fun i => if i.id = intent.id then i.settle now else i)
      (hJ : J.rows = db.journals.rows ++ [⟨draws.uuid 1, "settlement:" ++ advice.externalReference,
        .dutySettlement, order.currency, some order.id, some (draws.uuid 0), now⟩])
      (hE : E.rows = db.ledgerEntries.rows ++ settlementEntries order (draws.uuid 1) now)
      (hsupported : (currencyExponents.lookup order.currency).isSome = true)
      (hM : OutboxGrows db.outboxMessages.rows M.rows)
      (hannounced : Announced (draws.uuid 2) "order.issue_stamps" ("order.issue_stamps:" ++ order.id.str)
        [("order_id", .str order.id.str), ("quantity", .int order.quantity)] db.outboxMessages.rows M.rows)
      (hA : Audited settings db.auditEvents.rows A.rows) :
      IngestEffect settings draws advice now db (Tables.auditEvents.set A (Tables.outboxMessages.set M
        (Tables.ledgerEntries.set E (Tables.journals.set J (Tables.paymentIntents.set I
          (Tables.orderTransitions.set T (Tables.orders.set O (Tables.paymentReceipts.set R db))))))))

/-- A receipt without an intent is of an unknown reference, one with an intent is not. -/
theorem classify_some (intent : PaymentIntent) (advice : RemittanceAdvice) :
    classify (some intent) advice = .amountMismatch ∨ classify (some intent) advice = .matched := by
  unfold classify
  dsimp only
  split
  · exact .inl rfl
  · exact .inr rfl

/-- A remittance matches exactly on the amount, the currency and an open intent. -/
theorem classify_matched {intent : PaymentIntent} {advice : RemittanceAdvice}
    (h : classify (some intent) advice = .matched) :
    intent.amountMinor = advice.amountMinor ∧ intent.currency = advice.currency ∧
      intent.status = .awaitingPayment := by
  unfold classify at h
  dsimp only at h
  split at h
  · contradiction
  · rename_i hexact
    push Not at hexact
    exact hexact

/-- A committed ingestion of a new remittance has one of the effects. -/
theorem ingestNew_ok {settings : Settings} {draws : Draws} {advice : RemittanceAdvice} {now : Time}
    {result : IngestResult} {db db' : Db} (h : ingestNew settings draws advice now db = .ok (result, db')) :
    IngestEffect settings draws advice now db db' := by
  simp only [ingestNew, Tx.bind_ok, Tx.lift_ok, insertRow_ok, Tx.pure_ok, ensureUtc_ok] at h
  obtain ⟨found, db₁, hfound, payloadHash, db₂, ⟨-, rfl⟩, valueDate, db₃, ⟨⟨-, rfl⟩, rfl⟩, -, db₄, ⟨R, hR, rfl⟩,
    orderId, db₅, happly, event, db₆, haudit, -, rfl⟩ := h
  obtain ⟨A, hA, rfl⟩ := recordAuditEvent_ok haudit
  cases found with
  | none =>
    obtain ⟨-, rfl⟩ := selectOne_none.mp hfound
    obtain ⟨-, rfl⟩ := Tx.pure_ok.mp happly
    exact .unknown payloadHash R A hR hA
  | some intent =>
    obtain ⟨hfilter, rfl⟩ := selectOne_some.mp hfound
    obtain ⟨hintent, -⟩ := mem_of_filter_eq_singleton hfilter
    have hclass : (newReceipt (draws.uuid 0) (some intent) advice payloadHash now).status =
      classify (some intent) advice := rfl
    rcases classify_some intent advice with hstatus | hstatus
    · rw [hstatus] at hclass
      simp only [applyReceipt, hclass, Tx.bind_ok, Tx.pure_ok] at happly
      obtain ⟨u, db₆, hquarantine, -, rfl⟩ := happly
      obtain ⟨J, E, M, hJ, hE, hsupported, ⟨payload, hM⟩, rfl⟩ := quarantineFunds_ok hquarantine
      exact .mismatched intent payloadHash R J E M A hintent hstatus hR hJ hE hsupported hM.grows ⟨payload, hM⟩ hA
    · rw [hstatus] at hclass
      simp only [applyReceipt, hclass, Tx.bind_ok, Tx.pure_ok] at happly
      obtain ⟨paid, db₆, hsettle, -, rfl⟩ := happly
      obtain ⟨order, O, T, I, J, E, M, horder, hid, hawaiting, hO, hT, hI, hJ, hE, -, hsupported, hM, rfl⟩ :=
        settleIntent_ok hsettle
      exact .settled intent order payloadHash R O T I J E M A hintent hstatus horder hid hawaiting hR hO hT hI
        hJ hE hsupported hM.grows hM hA

/-- A committed ingestion has one of the effects. -/
theorem ingestRemittance_ok {settings : Settings} {draws : Draws} {advice : RemittanceAdvice} {now : Time}
    {result : IngestResult} {db db' : Db}
    (h : ingestRemittance settings draws advice now db = .ok (result, db')) :
    IngestEffect settings draws advice now db db' := by
  simp only [ingestRemittance, Tx.bind_ok] at h
  obtain ⟨existing, db₁, hselect, hrest⟩ := h
  cases existing with
  | none =>
    obtain ⟨-, rfl⟩ := selectOne_none.mp hselect
    exact ingestNew_ok hrest
  | some receipt =>
    obtain ⟨hfilter, rfl⟩ := selectOne_some.mp hselect
    obtain ⟨hmem, hreference⟩ := mem_of_filter_eq_singleton hfilter
    obtain rfl := replayIngest_ok hrest
    exact .replayed receipt hmem (by simpa using hreference)

end TaxStamp
