import TaxStamp.Intake
import TaxStamp.Journals

/-!
# Which remittances are taken

A remittance for a known intent either settles it or is held as unapplied, and either way
everything is written in one transaction: a constraint that refuses one row refuses the
payment. The conditions under which the whole transaction commits are constraints of other
modules: a posting must move a positive amount, an amount must be in a supported currency,
and the reference of the journal must fit its column together with its beginning.
-/

namespace TaxStamp

open Lib

/-- A remittance as the request model accepts it. -/
structure RemittanceAdvice.Accepted (advice : RemittanceAdvice) : Prop where
  externalReference : 6 ≤ advice.externalReference.length ∧ advice.externalReference.length ≤ 128
  declaredReference : 6 ≤ advice.declaredReference.length ∧ advice.declaredReference.length ≤ 64
  amountMinor : 0 < advice.amountMinor ∧ advice.amountMinor ≤ 10 ^ 15
  currency : advice.currency.length = 3

/-- What the audit event of an ingestion reports. -/
def ingestRecord (receiptId : Uuid) (status : ReceiptStatus) (advice : RemittanceAdvice) (orderId : Option Uuid) :
    AuditRecord where
  action := "payment.ingest"
  targetType := "payment_receipt"
  targetId := receiptId.str
  outcome := if status = .matched then .success else .failure
  afterState := some
    [("status", .str status.value),
      ("external_reference", .str advice.externalReference),
      ("amount_minor", .int advice.amountMinor),
      ("currency", .str advice.currency),
      ("order_id", .ofOption (orderId.map Uuid.str))]

/-- What an ingestion is granted from outside: digests of 32 bytes, an identifier that prints as a 128-bit number does,
identifiers of no other row, and an audit hash of no other event. -/
structure Granted (settings : Settings) (draws : Draws) (now : Time) (record : AuditRecord) (db : Db) : Prop where
  sha256 : ∀ message, (settings.crypto.sha256 message).length = 32
  hmacSha256 : ∀ key message, (settings.crypto.hmacSha256 key message).length = 32
  printed : (draws.uuid 0).str.length ≤ 39
  receipt : ∀ r ∈ db.paymentReceipts.rows, r.id ≠ draws.uuid 0
  journal : ∀ j ∈ db.journals.rows, j.id ≠ draws.uuid 1
  message : ∀ m ∈ db.outboxMessages.rows, m.id ≠ draws.uuid 2
  event : ∀ a ∈ db.auditEvents.rows, a.eventId ≠ draws.uuid 3
  hash : ∀ a ∈ db.auditEvents.rows,
    chainHash settings.crypto (((latestEvent db.auditEvents.rows).map AuditEvent.hash).getD genesisHash)
      (eventDocument (draws.uuid 3) now paymentIngestor record settings.revision) settings.auditChainSecret ≠ .ok a.hash

variable {settings : Settings} {db db' : Db}

/-! ### Texts that fit -/

/-- A printed identifier has no NUL. -/
theorem Uuid.nul_not_mem_str (id : Uuid) : '\x00' ∉ id.str.toList := by
  intro hmem
  have hdigit := isDigit_of_mem_repr (n := id.val) hmem
  exact absurd hdigit (by decide)

/-- The text of a digest is twice as long and has no NUL. -/
theorem varchar_hexText {digest : Bytes} (h : digest.length = 32) : varchar 64 (hexText digest) = true := by
  have hlength : (hexText digest).length = 64 := by
    rw [hexText, String.length_ofList, List.length_flatMap]
    simp [h]
  have hnul : '\x00' ∉ (hexText digest).toList := by
    intro hmem
    rw [hexText, String.toList_ofList, List.mem_flatMap] at hmem
    obtain ⟨byte, -, hbyte⟩ := hmem
    obtain ⟨n, hn, hdigit⟩ := List.mem_map.mp hbyte
    have hlt := byte.toNat_lt
    have hsmall : n < 16 := by
      simp only [List.mem_cons, List.not_mem_nil, or_false] at hn
      omega
    interval_cases n <;> cases hdigit
  simp [varchar, hlength, hnul]

/-- A text fits a column exactly when it is short enough and has no NUL. -/
theorem varchar_iff {limit : ℕ} {text : String} :
    varchar limit text = true ↔ text.length ≤ limit ∧ '\x00' ∉ text.toList := by
  simp [varchar]

/-- A text with a beginning fits when what follows the beginning is short enough. -/
theorem varchar_append {limit : ℕ} {first rest : String} (hfirst : '\x00' ∉ first.toList) :
    varchar limit (first ++ rest) = true ↔ first.length + rest.length ≤ limit ∧ '\x00' ∉ rest.toList := by
  rw [varchar_iff, String.length_append, String.toList_append, List.mem_append]
  simp [hfirst]

/-! ### The audit event -/

/-- Every event is numbered up to the latest. -/
theorem Chained.seq_le {rows : List AuditEvent} (h : Chained settings rows) {a : AuditEvent} (ha : a ∈ rows) :
    a.seq ≤ ((TaxStamp.latestEvent rows).map AuditEvent.seq).getD 0 := by
  rw [h.latestEvent]
  obtain ⟨first, last, rfl⟩ := (List.eq_nil_or_concat' rows).resolve_left (List.ne_nil_of_mem ha)
  rw [List.getLast?_concat]
  have hincreasing := h.increasing
  rw [List.pairwise_append] at hincreasing
  rcases List.mem_append.mp ha with hfirst | hlast
  · exact Nat.le_of_lt (hincreasing.2.2 a hfirst last (List.mem_singleton_self last))
  · rw [List.mem_singleton.mp hlast]
    exact Nat.le_refl _

/-- The hash that the next event continues is ASCII and fits its column. -/
theorem Chained.previous {A : Table auditEventSchema} (h : Chained settings A.rows) :
    IsAscii (((TaxStamp.latestEvent A.rows).map AuditEvent.hash).getD genesisHash).toList ∧
      varchar 64 (((TaxStamp.latestEvent A.rows).map AuditEvent.hash).getD genesisHash) = true := by
  rw [h.latestEvent]
  rcases List.eq_nil_or_concat' A.rows with hnil | ⟨first, last, hrows⟩
  · rw [hnil]
    exact ⟨by decide, by decide⟩
  · have hlinked := h.linked
    rw [hrows] at hlinked ⊢
    rw [List.getLast?_concat]
    obtain ⟨-, -, hhash⟩ := (linked_concat first last).mp hlinked
    have hfits := A.valid.fits last (by rw [hrows]; exact List.mem_append_right _ (List.mem_singleton_self last))
    simp only [auditEventSchema, Bool.and_eq_true] at hfits
    exact ⟨isAscii_chainHash hhash, hfits.2⟩

/-- A chain hash is computed over an ASCII predecessor and a document without floats. -/
theorem chainHash_of {previous : String} {document : JsonObject} (hascii : IsAscii previous.toList)
    (hfloat : (Json.obj document).occurs Json.isFloat = false) :
    ∃ message, chainHash settings.crypto previous document settings.auditChainSecret =
      .ok (hexText (settings.crypto.hmacSha256 (utf8 settings.auditChainSecret) message)) := by
  have hall : previous.toList.all (·.toNat < 128) = true :=
    List.all_eq_true.mpr fun c hc => decide_eq_true (hascii c hc)
  refine ⟨asciiBytes previous.toList ++ [46] ++ asciiBytes (Json.obj document).dumps, ?_⟩
  simp [chainHash, encodeAscii, hall, canonicalBytes, hfloat, bind, Except.bind, pure, Except.pure]

/-- The row of an event that follows the last one. -/
def nextEvent (settings : Settings) (draws : Draws) (last : Option AuditEvent) (eventId : Uuid) (actor : AuditActor)
    (record : AuditRecord) (occurredAt : Time) (hash : String) : AuditEvent where
  seq := (last.map AuditEvent.seq).getD 0 + 1 + draws.skipped
  eventId := eventId
  occurredAt := occurredAt
  actorPrincipalId := actor.principalId
  actorSubject := actor.subject
  actorRole := actor.role
  companyId := actor.companyId
  action := record.action
  targetType := record.targetType
  targetId := record.targetId
  outcome := record.outcome
  requestId := record.requestId
  idempotencyKey := record.idempotencyKey
  beforeState := record.beforeState
  afterState := record.afterState
  revision := settings.revision
  prevHash := (last.map AuditEvent.hash).getD genesisHash
  hash := hash

/-- An event is recorded when its hash can be computed and the table takes its row. -/
theorem recordAuditEvent_of_accepts {draws : Draws} {eventId : Uuid} {actor : AuditActor} {record : AuditRecord}
    {occurredAt : Time} {hash : String}
    (hhash : chainHash settings.crypto (((latestEvent db.auditEvents.rows).map AuditEvent.hash).getD genesisHash)
      (eventDocument eventId occurredAt actor record settings.revision) settings.auditChainSecret = .ok hash)
    (haccepts : db.auditEvents.Accepts
      (nextEvent settings draws (latestEvent db.auditEvents.rows) eventId actor record occurredAt hash)) :
    ∃ (event : AuditEvent) (A : Table auditEventSchema),
      recordAuditEvent settings draws eventId actor record occurredAt db =
        .ok (event, Tables.auditEvents.set A db) := by
  obtain ⟨A, hrows⟩ := Table.exists_append_iff.mpr haccepts
  refine ⟨nextEvent settings draws (latestEvent db.auditEvents.rows) eventId actor record occurredAt hash, A, ?_⟩
  simp only [recordAuditEvent, lastAuditEvent, Tx.bind_ok, selectFirst_ok, Tx.lift_ok, insertRow_ok, Tx.pure_ok,
    List.filter_true]
  exact ⟨_, db, ⟨rfl, rfl⟩, hash, db, ⟨hhash, rfl⟩, (), _, ⟨A, hrows, rfl⟩, rfl, rfl⟩

/-- The audit event of an ingestion is recorded. -/
theorem recordAuditEvent_ingest {draws : Draws} {now : Time} {orderId : Uuid} {status : ReceiptStatus}
    {advice : RemittanceAdvice} (hchained : Chained settings db.auditEvents.rows)
    (hrevision : varchar 64 settings.revision = true)
    (hgranted : Granted settings draws now (ingestRecord (draws.uuid 0) status advice (some orderId)) db)
    (hreference : '\x00' ∉ advice.externalReference.toList) (hcurrency : '\x00' ∉ advice.currency.toList)
    (hA : db'.auditEvents = db.auditEvents) :
    ∃ (event : AuditEvent) (A : Table auditEventSchema),
      recordAuditEvent settings draws (draws.uuid 3) paymentIngestor
        (ingestRecord (draws.uuid 0) status advice (some orderId)) now db' =
          .ok (event, Tables.auditEvents.set A db') := by
  obtain ⟨hascii, hprevious⟩ := hchained.previous
  have hfloat : (Json.obj (eventDocument (draws.uuid 3) now paymentIngestor
      (ingestRecord (draws.uuid 0) status advice (some orderId)) settings.revision)).occurs Json.isFloat = false := by
    simp [eventDocument, ingestRecord, paymentIngestor, Json.occurs, Json.occursField, Json.isFloat, Json.ofOption,
      Json.ofObject]
  obtain ⟨message, hhash⟩ := chainHash_of hascii hfloat
  have hstate : jsonb (.obj [("status", .str status.value), ("external_reference", .str advice.externalReference),
      ("amount_minor", .int advice.amountMinor), ("currency", .str advice.currency),
      ("order_id", .ofOption ((some orderId).map Uuid.str))]) = true := by
    have horder := orderId.nul_not_mem_str
    have hstatus : '\x00' ∉ status.value.toList := by cases status <;> decide
    simp [jsonb, Json.occurs, Json.occursField, Json.isNulText, Json.ofOption, hreference, hcurrency, horder, hstatus]
  refine recordAuditEvent_of_accepts (by rw [hA]; exact hhash) ?_
  rw [hA]
  refine ⟨?_, rfl, fun a ha => ?_⟩
  · have htarget : varchar 128 (draws.uuid 0).str = true :=
      varchar_iff.mpr ⟨hgranted.printed.trans (by decide), Uuid.nul_not_mem_str _⟩
    simp only [auditEventSchema, nextEvent, ingestRecord, paymentIngestor, Option.all_some, Option.all_none, htarget,
      hstate, hrevision, hprevious, varchar_hexText (hgranted.hmacSha256 _ _), Bool.and_true, Bool.and_eq_true]
    decide
  · have hseq := hchained.seq_le ha
    have hevent := hgranted.event a ha
    have hfresh : a.hash ≠ hexText (settings.crypto.hmacSha256 (utf8 settings.auditChainSecret) message) := by
      intro heq
      refine hgranted.hash a ha ?_
      rw [hhash, heq]
    simp only [auditEventSchema, nextEvent, decide_eq_false_iff_not, not_or]
    exact ⟨by omega, hevent, hfresh⟩

/-! ### The other rows -/

/-- A message is recorded when the outbox takes it. -/
theorem enqueue_of_accepts (db : Db) {message : OutboxMessage} (h : db.outboxMessages.Accepts message) :
    ∃ M : Table outboxMessageSchema, M.rows = db.outboxMessages.rows ++ [message] ∧
      enqueue message db = .ok (⟨some message.id, true⟩, Tables.outboxMessages.set M db) := by
  obtain ⟨M, hM⟩ := Table.exists_append_iff.mpr h
  refine ⟨M, hM, ?_⟩
  rw [enqueue, Table.insert_ok.mpr hM]

/-- An order moves along a legal transition with a reason that fits. -/
theorem transition_of_legal (db : Db) {order : Order} {target : OrderStatus} (actorPrincipalId : Option Uuid)
    {reason : String} (now : Time) (hlegal : target ∈ orderTransitions order.status)
    (hreason : varchar 500 reason = true) :
    ∃ (O : Table orderSchema) (T : Table orderTransitionSchema),
      O.rows = moveOrder order.id target now db.orders.rows ∧
      transition order target actorPrincipalId reason now db =
        .ok (order.withStatus target now, Tables.orderTransitions.set T (Tables.orders.set O db)) := by
  obtain ⟨O, hO⟩ := Table.exists_map (t := db.orders) (fun o => if o.id = order.id then o.withStatus target now else o)
    (fun o _ => by split <;> rfl) (fun o _ => by split <;> rfl) (fun a b => by split <;> split <;> rfl)
  have haccepts : db.orderTransitions.Accepts ⟨order.id, some order.status, target, actorPrincipalId, reason, now⟩ :=
    ⟨hreason, rfl, fun _ _ => rfl⟩
  obtain ⟨T, hT⟩ := Table.exists_append_iff.mpr haccepts
  refine ⟨O, T, hO, ?_⟩
  simp only [transition, assertOrderTransition, Tx.bind_ok, Tx.require_ok, updateRows_ok, insertRow_ok, Tx.pure_ok,
    decide_eq_true_eq]
  exact ⟨(), db, ⟨hlegal, rfl⟩, (), _, ⟨O, hO, rfl⟩, (), _, ⟨T, hT, rfl⟩, trivial, rfl⟩

/-- The postings of an exact settlement are made exactly when every amount is positive. -/
theorem settlementPostings_iff {order : Order} (hsupported : (currencyExponents.lookup order.currency).isSome = true) :
    (∃ postings, settlementPostings order = .ok postings) ↔
      0 < order.totalMinor ∧ 0 < order.subtotalMinor ∧ 0 < order.vatMinor := by
  simp only [settlementPostings, Money.make, dif_pos hsupported, Posting.make]
  by_cases htotal : 0 < order.totalMinor <;> by_cases hsubtotal : 0 < order.subtotalMinor <;>
    by_cases hvat : 0 < order.vatMinor <;>
    simp [htotal, hsubtotal, hvat, bind, Except.bind, pure, Except.pure]

/-- The postings of a settlement are at least two, in the currency of the order, and balanced. -/
theorem settlementPostings_balanced {order : Order} {postings : List Posting}
    (h : settlementPostings order = .ok postings) (htotal : order.totalMinor = order.subtotalMinor + order.vatMinor) :
    2 ≤ postings.length ∧ soleCurrency postings = some order.currency ∧
      postedTotal .debit postings = postedTotal .credit postings := by
  simp only [settlementPostings, Except.bind_ok] at h
  obtain ⟨total, hmake, debit, hdebit, subtotal, hmake', duty, hduty, vat, hmake'', credit, hcredit, heq⟩ := h
  injection heq with heq
  subst heq
  obtain ⟨-, hdirection, hamount⟩ := Posting.make_ok hdebit
  obtain ⟨-, hdirection', hamount'⟩ := Posting.make_ok hduty
  obtain ⟨-, hdirection'', hamount''⟩ := Posting.make_ok hcredit
  obtain ⟨hminor, hcurrency⟩ := Money.make_ok.mp hmake
  obtain ⟨hminor', hcurrency'⟩ := Money.make_ok.mp hmake'
  obtain ⟨hminor'', hcurrency''⟩ := Money.make_ok.mp hmake''
  refine ⟨by simp, ?_, ?_⟩
  · simp [soleCurrency, hamount, hamount', hamount'', hcurrency, hcurrency', hcurrency'']
  · simp [postedTotal, hdirection, hdirection', hdirection'', hamount, hamount', hamount'', hminor, hminor', hminor'',
      htotal]

/-- The postings of an unapplied receipt are made exactly of a positive amount in a supported currency. -/
theorem unappliedPostings_iff {advice : RemittanceAdvice} :
    (∃ postings, unappliedPostings advice = .ok postings) ↔
      0 < advice.amountMinor ∧ (currencyExponents.lookup advice.currency).isSome = true := by
  simp only [unappliedPostings, Money.make]
  by_cases hsupported : (currencyExponents.lookup advice.currency).isSome = true
  · simp only [dif_pos hsupported, Posting.make]
    by_cases hamount : 0 < advice.amountMinor <;>
      simp [hamount, hsupported, bind, Except.bind, pure, Except.pure]
  · simp [hsupported, bind, Except.bind]

/-- The postings of an unapplied receipt are two, in its currency, and balanced. -/
theorem unappliedPostings_balanced {advice : RemittanceAdvice} {postings : List Posting}
    (h : unappliedPostings advice = .ok postings) :
    2 ≤ postings.length ∧ soleCurrency postings = some advice.currency ∧
      postedTotal .debit postings = postedTotal .credit postings := by
  simp only [unappliedPostings, Except.bind_ok] at h
  obtain ⟨amount, hmake, debit, hdebit, credit, hcredit, heq⟩ := h
  injection heq with heq
  subst heq
  obtain ⟨-, hdirection, hamount⟩ := Posting.make_ok hdebit
  obtain ⟨-, hdirection', hamount'⟩ := Posting.make_ok hcredit
  obtain ⟨hminor, hcurrency⟩ := Money.make_ok.mp hmake
  refine ⟨by simp, ?_, ?_⟩
  · simp [soleCurrency, hamount, hamount', hcurrency]
  · simp [postedTotal, hdirection, hdirection', hamount, hamount', hminor]

/-- The message that asks for the stamps of a paid order. -/
def issueMessage (messageId : Uuid) (order : Order) (now : Time) : OutboxMessage :=
  .pending messageId "order" order.id "order.issue_stamps" (issueKey order.id)
    [("order_id", .str order.id.str), ("quantity", .int order.quantity)] now

/-- The message that sends a mismatched remittance to review. -/
def reviewMessage (messageId receiptId : Uuid) (advice : RemittanceAdvice) (intent : PaymentIntent) (now : Time) :
    OutboxMessage :=
  .pending messageId "payment_receipt" receiptId "payment.mismatch_requires_review"
    ("payment.mismatch:" ++ advice.externalReference)
    [("receipt_id", .str receiptId.str),
      ("declared_reference", .str advice.declaredReference),
      ("amount_minor", .int advice.amountMinor),
      ("expected_minor", .int intent.amountMinor)] now

/-- An exact remittance settles its order when the postings are made and the tables take their rows. -/
theorem settleIntent_of_accepts (db : Db) {draws : Draws} {intent : PaymentIntent} (receipt : PaymentReceipt)
    {now : Time} {order : Order} (horder : order ∈ db.orders.rows) (hid : order.id = intent.orderId)
    (hawaiting : order.status = .awaitingPayment)
    (hsupported : (currencyExponents.lookup order.currency).isSome = true) (hvat : 0 < order.vatMinor)
    (hreason : varchar 500 ("settlement " ++ receipt.externalReference) = true)
    (hjournal : db.journals.Accepts ⟨draws.uuid 1, "settlement:" ++ receipt.externalReference, .dutySettlement,
      order.currency, some order.id, some receipt.id, now⟩)
    (hmessage : db.outboxMessages.Accepts (issueMessage (draws.uuid 2) order now)) :
    ∃ (O : Table orderSchema) (T : Table orderTransitionSchema) (I : Table paymentIntentSchema)
      (J : Table journalSchema) (E : Table ledgerEntrySchema) (M : Table outboxMessageSchema),
      O.rows = moveOrder order.id .paid now db.orders.rows ∧
      (I.rows = db.paymentIntents.rows.map fun i => if i.id = intent.id then i.settle now else i) ∧
      J.rows = db.journals.rows ++ [⟨draws.uuid 1, "settlement:" ++ receipt.externalReference, .dutySettlement,
        order.currency, some order.id, some receipt.id, now⟩] ∧
      E.rows = db.ledgerEntries.rows ++ settlementEntries order (draws.uuid 1) now ∧
      M.rows = db.outboxMessages.rows ++ [issueMessage (draws.uuid 2) order now] ∧
      settleIntent draws intent receipt now db =
        .ok (order.withStatus .paid now, Tables.outboxMessages.set M (Tables.ledgerEntries.set E (Tables.journals.set J
          (Tables.paymentIntents.set I (Tables.orderTransitions.set T (Tables.orders.set O db)))))) := by
  have hfetch : db.orders.rows.filter (fun o => o.id = intent.orderId) = [order] := by
    refine db.orders.filter_eq_singleton horder (by simp [hid]) fun o _ hsame => ?_
    simp only [decide_eq_true_eq] at hsame
    simp [orderSchema, hsame, hid]
  have hcheck := db.orders.valid.check order horder
  have hfits := db.orders.valid.fits order horder
  simp only [orderSchema, Bool.and_eq_true, decide_eq_true_eq] at hcheck hfits
  obtain ⟨⟨⟨⟨⟨-, -⟩, hsubtotal⟩, -⟩, -⟩, htotal⟩ := hcheck
  obtain ⟨O, T, hO, htransition⟩ := transition_of_legal db none now (paid_mem_orderTransitions.mpr hawaiting) hreason
  obtain ⟨I, hI⟩ := Table.exists_map (t := db.paymentIntents) (fun i => if i.id = intent.id then i.settle now else i)
    (fun i _ => by split <;> rfl) (fun i _ => by split <;> rfl) (fun a b => by split <;> split <;> rfl)
  obtain ⟨postings, hpostings⟩ : ∃ postings, settlementPostings (order.withStatus .paid now) = .ok postings :=
    (settlementPostings_iff hsupported).mpr ⟨(by omega : 0 < order.totalMinor), hsubtotal, hvat⟩
  obtain ⟨htwo, hcurrency, hbalanced⟩ := settlementPostings_balanced hpostings htotal
  obtain ⟨hwritten, -⟩ := settlementPostings_ok hpostings (draws.uuid 1) now
  have hentries : ∀ e ∈ postings.map fun p => p.entry (draws.uuid 1) now, ledgerEntrySchema.fits e = true := by
    obtain ⟨⟨⟨⟨⟨⟨⟨⟨-, hfitsSubtotal⟩, -⟩, hfitsVat⟩, hfitsTotal⟩, hfitsCurrency⟩, -⟩, -⟩, -⟩ := hfits
    rw [hwritten]
    intro e he
    simp only [settlementEntries, List.mem_cons, List.not_mem_nil, or_false] at he
    rcases he with rfl | rfl | rfl
    · exact entry_fits Account.chart_fits.1 hfitsTotal hfitsCurrency
    · exact entry_fits Account.chart_fits.2.1 hfitsSubtotal hfitsCurrency
    · exact entry_fits Account.chart_fits.2.2.1 hfitsVat hfitsCurrency
  obtain ⟨J, E, hJ, hE, hpost⟩ := postJournal_of_accepts
    (Tables.paymentIntents.set I (Tables.orderTransitions.set T (Tables.orders.set O db))) htwo hcurrency hbalanced
    hjournal hentries
  obtain ⟨M, hM, henqueue⟩ := enqueue_of_accepts (Tables.ledgerEntries.set E (Tables.journals.set J
    (Tables.paymentIntents.set I (Tables.orderTransitions.set T (Tables.orders.set O db))))) hmessage
  rw [hwritten] at hE
  refine ⟨O, T, I, J, E, M, hO, hI, hJ, hE, hM, ?_⟩
  simp only [settleIntent, Tx.bind_ok, fetch_ok, updateRows_ok, Tx.lift_ok, Tx.pure_ok, decide_eq_true_eq]
  exact ⟨order, db, ⟨hfetch, rfl⟩, _, _, htransition, (), _, ⟨I, hI, rfl⟩, postings, _, ⟨hpostings, rfl⟩, _, _, hpost, _,
    _, henqueue, rfl, rfl⟩

/-- A mismatched remittance is held when its postings are made and the tables take their rows. -/
theorem quarantineFunds_of_accepts (db : Db) {draws : Draws} {intent : PaymentIntent} (receipt : PaymentReceipt)
    {advice : RemittanceAdvice} {now : Time} (hreference : receipt.externalReference = advice.externalReference)
    (haccepted : advice.Accepted) (hsupported : (currencyExponents.lookup advice.currency).isSome = true)
    (hjournal : db.journals.Accepts ⟨draws.uuid 1, "unapplied:" ++ advice.externalReference, .unappliedReceipt,
      advice.currency, none, some receipt.id, now⟩)
    (hmessage : db.outboxMessages.Accepts (reviewMessage (draws.uuid 2) receipt.id advice intent now)) :
    ∃ (J : Table journalSchema) (E : Table ledgerEntrySchema) (M : Table outboxMessageSchema),
      J.rows = db.journals.rows ++ [⟨draws.uuid 1, "unapplied:" ++ advice.externalReference, .unappliedReceipt,
        advice.currency, none, some receipt.id, now⟩] ∧
      E.rows = db.ledgerEntries.rows ++ unappliedEntries advice (draws.uuid 1) now ∧
      M.rows = db.outboxMessages.rows ++ [reviewMessage (draws.uuid 2) receipt.id advice intent now] ∧
      quarantineFunds draws intent receipt advice now db =
        .ok ((), Tables.outboxMessages.set M (Tables.ledgerEntries.set E (Tables.journals.set J db))) := by
  obtain ⟨postings, hpostings⟩ := unappliedPostings_iff.mpr ⟨haccepted.amountMinor.1, hsupported⟩
  obtain ⟨htwo, hcurrency, hbalanced⟩ := unappliedPostings_balanced hpostings
  obtain ⟨hwritten, -⟩ := unappliedPostings_ok hpostings (draws.uuid 1) now
  have hentries : ∀ e ∈ postings.map fun p => p.entry (draws.uuid 1) now, ledgerEntrySchema.fits e = true := by
    have hamount : bigint advice.amountMinor = true := by
      have hbounds := haccepted.amountMinor
      simp only [bigint, Bool.and_eq_true, decide_eq_true_eq]
      omega
    have hshort := supported_varchar hsupported
    rw [hwritten]
    intro e he
    simp only [unappliedEntries, List.mem_cons, List.not_mem_nil, or_false] at he
    rcases he with rfl | rfl
    · exact entry_fits Account.chart_fits.1 hamount hshort
    · exact entry_fits Account.chart_fits.2.2.2 hamount hshort
  obtain ⟨J, E, hJ, hE, hpost⟩ := postJournal_of_accepts db htwo hcurrency hbalanced hjournal hentries
  obtain ⟨M, hM, henqueue⟩ := enqueue_of_accepts (Tables.ledgerEntries.set E (Tables.journals.set J db)) hmessage
  rw [hwritten] at hE
  refine ⟨J, E, M, hJ, hE, hM, ?_⟩
  simp only [quarantineFunds, Tx.bind_ok, Tx.lift_ok, Tx.pure_ok, hreference]
  exact ⟨postings, _, ⟨hpostings, rfl⟩, _, _, hpost, _, _, henqueue, trivial, rfl⟩

/-! ### The whole ingestion -/

/-- The database after an exact remittance: the order is paid, its intent settled, and the receipt, a balanced journal
over the whole amount and the request for the stamps are written. -/
structure Settles (draws : Draws) (advice : RemittanceAdvice) (now : Time) (intent : PaymentIntent) (order : Order)
    (db db' : Db) : Prop where
  receipt : ∃ payloadHash, db'.paymentReceipts.rows =
    db.paymentReceipts.rows ++ [newReceipt (draws.uuid 0) (some intent) advice payloadHash now]
  matched : classify (some intent) advice = .matched
  orders : db'.orders.rows = moveOrder order.id .paid now db.orders.rows
  intents : db'.paymentIntents.rows = db.paymentIntents.rows.map fun i => if i.id = intent.id then i.settle now else i
  journal : db'.journals.rows = db.journals.rows ++ [⟨draws.uuid 1, "settlement:" ++ advice.externalReference,
    .dutySettlement, order.currency, some order.id, some (draws.uuid 0), now⟩]
  entries : db'.ledgerEntries.rows = db.ledgerEntries.rows ++ settlementEntries order (draws.uuid 1) now
  debits : journalTotal (settlementEntries order (draws.uuid 1) now) .debit = advice.amountMinor
  credits : journalTotal (settlementEntries order (draws.uuid 1) now) .credit = advice.amountMinor
  message : db'.outboxMessages.rows = db.outboxMessages.rows ++ [issueMessage (draws.uuid 2) order now]

/-- The database after a remittance that settles nothing: the receipt, a balanced journal over the amount received and
one message for the review are written, and the orders and intents are as they were. -/
structure Quarantines (draws : Draws) (advice : RemittanceAdvice) (now : Time) (intent : PaymentIntent)
    (db db' : Db) : Prop where
  receipt : ∃ payloadHash, db'.paymentReceipts.rows =
    db.paymentReceipts.rows ++ [newReceipt (draws.uuid 0) (some intent) advice payloadHash now]
  mismatched : classify (some intent) advice = .amountMismatch
  journal : db'.journals.rows = db.journals.rows ++ [⟨draws.uuid 1, "unapplied:" ++ advice.externalReference,
    .unappliedReceipt, advice.currency, none, some (draws.uuid 0), now⟩]
  entries : db'.ledgerEntries.rows = db.ledgerEntries.rows ++ unappliedEntries advice (draws.uuid 1) now
  message : db'.outboxMessages.rows = db.outboxMessages.rows ++
    [reviewMessage (draws.uuid 2) (draws.uuid 0) advice intent now]
  orders : db'.orders = db.orders
  intents : db'.paymentIntents = db.paymentIntents

/-- A remittance for a known intent that has not been seen before. -/
structure Declares (advice : RemittanceAdvice) (intent : PaymentIntent) (db : Db) : Prop where
  accepted : advice.Accepted
  known : intent ∈ db.paymentIntents.rows
  declared : advice.declaredReference = intent.reference
  unseen : ∀ r ∈ db.paymentReceipts.rows, r.externalReference ≠ advice.externalReference

/-- The document of a remittance has a canonical form, its date is a UTC date, and its reference has no NUL. -/
structure RemittanceAdvice.Readable (advice : RemittanceAdvice) : Prop where
  raw : (Json.obj advice.raw).occurs Json.isFloat = false
  valueDate : advice.valueDate.representable = true
  reference : '\x00' ∉ advice.externalReference.toList

section Ingest

variable {draws : Draws} {advice : RemittanceAdvice} {now : Time} {intent : PaymentIntent}

/-- The intent that a remittance declares is found. -/
theorem Declares.found (h : Declares advice intent db) :
    db.paymentIntents.rows.filter (fun i => i.reference = advice.declaredReference) = [intent] := by
  refine db.paymentIntents.filter_eq_singleton h.known (by simp [h.declared]) fun i _ hsame => ?_
  simp only [decide_eq_true_eq] at hsame
  simp [paymentIntentSchema, hsame, h.declared]

/-- The receipt of a remittance is taken. -/
theorem Declares.receipt_accepted (h : Declares advice intent db) (now : Time)
    (hreference : '\x00' ∉ advice.externalReference.toList)
    (hcurrency : '\x00' ∉ advice.currency.toList) (hid : ∀ r ∈ db.paymentReceipts.rows, r.id ≠ draws.uuid 0)
    {payloadHash : String} (hhash : varchar 64 payloadHash = true) :
    db.paymentReceipts.Accepts (newReceipt (draws.uuid 0) (some intent) advice payloadHash now) := by
  have hbounds := h.accepted.amountMinor
  have hdeclared := db.paymentIntents.valid.fits intent h.known
  simp only [paymentIntentSchema, Bool.and_eq_true, varchar_iff] at hdeclared
  refine ⟨?_, decide_eq_true hbounds.1, fun r hr => ?_⟩
  · have hlong : varchar 128 advice.externalReference = true :=
      varchar_iff.mpr ⟨h.accepted.externalReference.2, hreference⟩
    have hintent : varchar 64 advice.declaredReference = true := by
      rw [h.declared]
      exact varchar_iff.mpr ⟨by omega, hdeclared.1.1.2⟩
    have hamount : bigint advice.amountMinor = true := by
      simp only [bigint, Bool.and_eq_true, decide_eq_true_eq]
      omega
    have hshort : varchar 3 advice.currency = true := varchar_iff.mpr ⟨h.accepted.currency.le, hcurrency⟩
    simp [paymentReceiptSchema, newReceipt, hlong, hintent, hamount, hshort, hhash]
  · simp only [paymentReceiptSchema, newReceipt, decide_eq_false_iff_not, not_or]
    exact ⟨hid r hr, h.unseen r hr⟩

/-- A remittance that has not been seen is ingested as a new one. -/
theorem Declares.ingest (h : Declares advice intent db) {answer : IngestResult} :
    ingestRemittance settings draws advice now db = .ok (answer, db') ↔
      ingestNew settings draws advice now db = .ok (answer, db') := by
  have hnone : db.paymentReceipts.rows.filter (fun r => r.externalReference = advice.externalReference) = [] := by
    refine List.filter_eq_nil_iff.mpr fun r hr => ?_
    simpa using h.unseen r hr
  rw [ingestRemittance, Tx.bind_ok]
  constructor
  · rintro ⟨existing, db₁, hselect, hrest⟩
    cases existing with
    | none =>
      obtain ⟨-, rfl⟩ := selectOne_none.mp hselect
      exact hrest
    | some receipt =>
      obtain ⟨hfilter, -⟩ := selectOne_some.mp hselect
      cases hnone.symm.trans hfilter
  · intro hnew
    exact ⟨none, db, selectOne_none.mpr ⟨hnone, rfl⟩, hnew⟩

/-- A new remittance is ingested when its receipt is taken and applied. -/
theorem ingestNew_of_applied (h : Declares advice intent db) (hreadable : advice.Readable)
    (hcurrency : '\x00' ∉ advice.currency.toList) (hchained : Chained settings db.auditEvents.rows)
    (hrevision : varchar 64 settings.revision = true)
    (hgranted : Granted settings draws now
      (ingestRecord (draws.uuid 0) (classify (some intent) advice) advice (some intent.orderId)) db)
    (Applied : Db → Prop)
    (happlied : ∀ payloadHash (R : Table paymentReceiptSchema),
      R.rows = db.paymentReceipts.rows ++ [newReceipt (draws.uuid 0) (some intent) advice payloadHash now] →
      ∃ db₁, applyReceipt draws (some intent) (newReceipt (draws.uuid 0) (some intent) advice payloadHash now) advice now
        (Tables.paymentReceipts.set R db) = .ok (some intent.orderId, db₁) ∧ db₁.auditEvents = db.auditEvents ∧
        Applied db₁) :
    ∃ db₁ A, Applied db₁ ∧ ingestNew settings draws advice now db =
      .ok (⟨draws.uuid 0, classify (some intent) advice, some intent.orderId, false⟩, Tables.auditEvents.set A db₁) := by
  have hcanonical : canonicalBytes advice.raw = .ok (asciiBytes (Json.obj advice.raw).dumps) := by
    rw [canonicalBytes, if_neg (by simp [hreadable.raw])]
  set payloadHash := sha256Hex settings.crypto (asciiBytes (Json.obj advice.raw).dumps) with hpayload
  have hhash : canonicalHash settings.crypto advice.raw = .ok payloadHash := by
    rw [canonicalHash, hcanonical]
    rfl
  have hfits : varchar 64 payloadHash = true := varchar_hexText (hgranted.sha256 _)
  obtain ⟨R, hR⟩ := Table.exists_append_iff.mpr
    (h.receipt_accepted now hreadable.reference hcurrency hgranted.receipt hfits)
  obtain ⟨db₁, happly, haudit, happliedDb⟩ := happlied payloadHash R hR
  obtain ⟨event, A, hrecord⟩ := recordAuditEvent_ingest hchained hrevision hgranted hreadable.reference hcurrency haudit
  refine ⟨db₁, A, happliedDb, ?_⟩
  simp only [ingestNew, Tx.bind_ok, Tx.lift_ok, insertRow_ok, Tx.pure_ok, ensureUtc_ok]
  exact ⟨some intent, db, selectOne_some.mpr ⟨h.found, rfl⟩, payloadHash, db, ⟨hhash, rfl⟩, advice.valueDate, db,
    ⟨⟨hreadable.valueDate, rfl⟩, rfl⟩, (), _, ⟨R, hR, rfl⟩, _, db₁, happly, event, _, hrecord, rfl, rfl⟩

/-- An ingestion that returns has read the document and the date of its remittance. -/
theorem ingestNew_readable {answer : IngestResult} (h : ingestNew settings draws advice now db = .ok (answer, db')) :
    (Json.obj advice.raw).occurs Json.isFloat = false ∧ advice.valueDate.representable = true := by
  simp only [ingestNew, Tx.bind_ok, Tx.lift_ok, insertRow_ok, Tx.pure_ok, ensureUtc_ok] at h
  obtain ⟨found, db₁, -, payloadHash, db₂, ⟨hhash, rfl⟩, valueDate, db₃, ⟨⟨hdate, -⟩, -⟩, -⟩ := h
  refine ⟨?_, hdate⟩
  by_contra hfloat
  rw [Bool.not_eq_false] at hfloat
  rw [canonicalHash, canonicalBytes, if_pos hfloat] at hhash
  cases hhash

/-- The revision that orders were audited under fits its column, and the identifier of an order fits where it is
printed. -/
theorem Intake.audited_fits (h : Intake settings db) {order : Order} (horder : order ∈ db.orders.rows) :
    varchar 64 settings.revision = true ∧ order.id.str.length ≤ 128 := by
  obtain ⟨a, ha, hrevision, htarget⟩ := h.audited order horder
  have hfits := db.auditEvents.valid.fits a ha
  simp only [auditEventSchema, Bool.and_eq_true] at hfits
  rw [← hrevision, ← htarget]
  exact ⟨hfits.1.1.2, (varchar_iff.mp hfits.1.1.1.1.1.1.1.2).1⟩

end Ingest

/-! ### An exact payment -/

/-- A remittance of exactly the amount and the currency that an open intent of an open order is over. -/
structure Exact (advice : RemittanceAdvice) (intent : PaymentIntent) (order : Order) (db : Db) : Prop
    extends Declares advice intent db where
  listed : order ∈ db.orders.rows
  orderId : intent.orderId = order.id
  orderStatus : order.status = .awaitingPayment
  intentStatus : intent.status = .awaitingPayment
  amountMinor : advice.amountMinor = intent.amountMinor
  currency : advice.currency = intent.currency

section Exact

variable {draws : Draws} {advice : RemittanceAdvice} {now : Time} {intent : PaymentIntent} {order : Order}

/-- An exact payment matches. -/
theorem Exact.classify (h : Exact advice intent order db) : TaxStamp.classify (some intent) advice = .matched := by
  simp [TaxStamp.classify, h.amountMinor, h.currency, h.intentStatus]

/-- The intent of an open order is over its total. -/
theorem Exact.awaiting (h : Exact advice intent order db) (hreconciled : Reconciled db) :
    intent.amountMinor = order.totalMinor ∧ intent.currency = order.currency := by
  have hdossier := hreconciled.dossier order h.listed
  unfold Accounts.Dossier at hdossier
  rw [h.orderStatus] at hdossier
  obtain ⟨i, hawaiting⟩ := hdossier
  obtain rfl := Accounts.eq_of_mem_intentsOf hawaiting.intents h.known h.orderId
  exact ⟨hawaiting.amount, hawaiting.currency⟩

/-- The journal of an exact payment is taken. -/
theorem Exact.journal_accepted (h : Exact advice intent order db) (hintake : Intake settings db)
    (hid : ∀ j ∈ db.journals.rows, j.id ≠ draws.uuid 1) (hlength : advice.externalReference.length ≤ 117)
    (hnul : '\x00' ∉ advice.externalReference.toList) :
    db.journals.Accepts ⟨draws.uuid 1, "settlement:" ++ advice.externalReference, .dutySettlement, order.currency,
      some order.id, some (draws.uuid 0), now⟩ := by
  have hfits := db.orders.valid.fits order h.listed
  simp only [orderSchema, Bool.and_eq_true] at hfits
  refine ⟨(Bool.and_eq_true _ _).mpr ⟨?_, hfits.1.1.1.2⟩, rfl, fun j hj => ?_⟩
  · refine (varchar_append (by decide)).mpr ⟨?_, hnul⟩
    have hprefix : "settlement:".length = 11 := by decide
    omega
  · simp only [journalSchema, decide_eq_false_iff_not, not_or]
    exact ⟨hid j hj, (hintake.journal_free h.unseen j hj).1⟩

/-- The request for the stamps is taken. -/
theorem Exact.message_accepted (h : Exact advice intent order db) (hintake : Intake settings db)
    (hid : ∀ m ∈ db.outboxMessages.rows, m.id ≠ draws.uuid 2) :
    db.outboxMessages.Accepts (issueMessage (draws.uuid 2) order now) := by
  refine ⟨?_, rfl, fun m hm => ?_⟩
  · have hkey : varchar 200 (issueKey order.id) = true := by
      refine (varchar_append (by decide)).mpr ⟨?_, Uuid.nul_not_mem_str _⟩
      have hprefix : "order.issue_stamps:".length = 19 := by decide
      have hprinted := (hintake.audited_fits h.listed).2
      omega
    have hpayload : jsonb (.obj [("order_id", .str order.id.str), ("quantity", .int order.quantity)]) = true := by
      simp [jsonb, Json.occurs, Json.occursField, Json.isNulText, Uuid.nul_not_mem_str]
    simp only [outboxMessageSchema, issueMessage, OutboxMessage.pending, hkey, hpayload, Option.all_none, Bool.and_true]
    decide
  · have hfree := hintake.issueKey_free h.listed (by rw [h.orderStatus]; rfl) m hm
    simp only [outboxMessageSchema, issueMessage, OutboxMessage.pending, decide_eq_false_iff_not, not_or]
    exact ⟨hid m hm, hfree⟩

/-- An exact payment settles its order when its VAT is not zero, its reference leaves room for the journal's, and it
can be read. -/
theorem Exact.settles (h : Exact advice intent order db) (hsound : Sound settings db) (hintake : Intake settings db)
    (hgranted : Granted settings draws now (ingestRecord (draws.uuid 0) .matched advice (some order.id)) db)
    (hvat : 0 < order.vatMinor) (hlength : advice.externalReference.length ≤ 117) (hreadable : advice.Readable) :
    ∃ db', ingestRemittance settings draws advice now db = .ok (⟨draws.uuid 0, .matched, some order.id, false⟩, db') ∧
      Settles draws advice now intent order db db' := by
  obtain ⟨hamount, hcurrency⟩ := h.awaiting hsound.reconciled
  have hsupported := hintake.supported order h.listed
  have htotal := totalMinor_eq h.listed
  have hnul : '\x00' ∉ advice.currency.toList := by
    rw [h.currency, hcurrency]
    rcases supported_iff.mp hsupported with hngn | husd
    · rw [hngn]
      decide
    · rw [husd]
      decide
  have hreason : varchar 500 ("settlement " ++ advice.externalReference) = true := by
    refine (varchar_append (by decide)).mpr ⟨?_, hreadable.reference⟩
    have hprefix : "settlement ".length = 11 := by decide
    omega
  rw [← h.classify, ← h.orderId] at hgranted
  have happlied : ∀ payloadHash (R : Table paymentReceiptSchema),
      R.rows = db.paymentReceipts.rows ++ [newReceipt (draws.uuid 0) (some intent) advice payloadHash now] →
      ∃ db₁, applyReceipt draws (some intent) (newReceipt (draws.uuid 0) (some intent) advice payloadHash now) advice now
        (Tables.paymentReceipts.set R db) = .ok (some intent.orderId, db₁) ∧ db₁.auditEvents = db.auditEvents ∧
        ∀ A, Settles draws advice now intent order db (Tables.auditEvents.set A db₁) := by
    intro payloadHash R hR
    obtain ⟨O, T, I, J, E, M, hO, hI, hJ, hE, hM, hsettle⟩ := settleIntent_of_accepts
      (Tables.paymentReceipts.set R db) (newReceipt (draws.uuid 0) (some intent) advice payloadHash now) h.listed
      h.orderId.symm h.orderStatus hsupported hvat hreason
      (h.journal_accepted hintake hgranted.journal hlength hreadable.reference)
      (h.message_accepted hintake hgranted.message)
    refine ⟨Tables.outboxMessages.set M (Tables.ledgerEntries.set E (Tables.journals.set J (Tables.paymentIntents.set I
      (Tables.orderTransitions.set T (Tables.orders.set O (Tables.paymentReceipts.set R db)))))), ?_, rfl,
      fun A => ⟨⟨payloadHash, hR⟩, h.classify, hO, hI, hJ, hE, ?_, ?_, hM⟩⟩
    · have hstatus : (newReceipt (draws.uuid 0) (some intent) advice payloadHash now).status = .matched := h.classify
      simp only [applyReceipt, hstatus, Tx.bind_ok, Tx.pure_ok]
      exact ⟨_, _, hsettle, congrArg some h.orderId, rfl⟩
    · simp [journalTotal, settlementEntries, h.amountMinor, hamount]
    · simp [journalTotal, settlementEntries, h.amountMinor, hamount, htotal]
  obtain ⟨db₁, A, hsettles, hingest⟩ := ingestNew_of_applied h.toDeclares hreadable hnul hsound.chained
    (hintake.audited_fits h.listed).1 hgranted _ happlied
  rw [h.classify, h.orderId] at hingest
  exact ⟨_, h.toDeclares.ingest.mpr hingest, hsettles A⟩

end Exact

/-- An exact payment settles its order, in every reachable state, exactly when the VAT of the order is not zero, the
external reference has at most 117 characters, and the remittance can be read. -/
theorem exact_payment_settles_iff (settings : Settings) (companies : Table companySchema) (tariffs : Table tariffSchema)
    (events : List Event) (draws : Draws) (advice : RemittanceAdvice) (now : Time) (intent : PaymentIntent)
    (order : Order)
    (hexact : Exact advice intent order (run (step settings) (.initial companies tariffs) events).db)
    (hgranted : Granted settings draws now (ingestRecord (draws.uuid 0) .matched advice (some order.id))
      (run (step settings) (.initial companies tariffs) events).db) :
    let db := (run (step settings) (.initial companies tariffs) events).db
    (∃ db', ingestRemittance settings draws advice now db = .ok (⟨draws.uuid 0, .matched, some order.id, false⟩, db') ∧
      Settles draws advice now intent order db db') ↔
      0 < order.vatMinor ∧ advice.externalReference.length ≤ 117 ∧ advice.Readable := by
  intro db
  constructor
  · rintro ⟨db', hingest, hsettles⟩
    obtain ⟨hraw, hdate⟩ := ingestNew_readable (hexact.toDeclares.ingest.mp hingest)
    have hjournal := db'.journals.valid.fits ⟨draws.uuid 1, "settlement:" ++ advice.externalReference,
      .dutySettlement, order.currency, some order.id, some (draws.uuid 0), now⟩ (by
        rw [hsettles.journal]
        exact List.mem_append_right _ (List.mem_singleton.mpr rfl))
    have hentry := db'.ledgerEntries.valid.check
      ⟨draws.uuid 1, .vatPayable, .credit, order.vatMinor, order.currency, now⟩ (by
        rw [hsettles.entries]
        exact List.mem_append_right _ (by simp [settlementEntries]))
    simp only [journalSchema, Bool.and_eq_true] at hjournal
    obtain ⟨hlength, hnul⟩ := (varchar_append (by decide)).mp hjournal.1
    have hprefix : "settlement:".length = 11 := by decide
    exact ⟨of_decide_eq_true hentry, by omega, hraw, hdate, hnul⟩
  · rintro ⟨hvat, hlength, hreadable⟩
    exact hexact.settles (Sound.run settings companies tariffs events) (Intake.run settings companies tariffs events)
      hgranted hvat hlength hreadable

/-- Settings with digests of 32 bytes. -/
def sampleStrong : Settings where
  crypto :=
    let digest : Bytes → Bytes := fun message =>
      List.replicate 31 0 ++ [((message.drop 62).take 2).foldr (fun byte acc => byte + 16 * acc) 0 + 1]
    ⟨digest, fun _ => digest⟩
  auditChainSecret := "chain"
  deviceHmacSecret := "device"
  revision := "r1"
  maxOrderQuantity := 1000

/-- A remittance for the intent of the sample order. -/
def sampleAdvice (externalReference : String) (amountMinor : ℤ) (currency : String) : RemittanceAdvice :=
  ⟨externalReference, reference "PAY" sampleNow (sampleDraws 2).choices, amountMinor, currency, sampleNow, []⟩

/-- The platform with an approved order, under a tariff. -/
abbrev sampleOpen (tariffs : Table tariffSchema) : Db :=
  (run (step sampleStrong) (.initial sampleCompanies tariffs) sampleApproved).db

/-- The hash of the audit event of a sample remittance is that of no other event. -/
abbrev sampleHashFresh (tariffs : Table tariffSchema) (status : ReceiptStatus) (advice : RemittanceAdvice) : Prop :=
  ∀ a ∈ (sampleOpen tariffs).auditEvents.rows, chainHash sampleStrong.crypto
    (((latestEvent (sampleOpen tariffs).auditEvents.rows).map AuditEvent.hash).getD genesisHash)
    (eventDocument ((sampleDraws 3).uuid 3) sampleNow paymentIngestor
      (ingestRecord ((sampleDraws 3).uuid 0) status advice (some ⟨100⟩)) sampleStrong.revision)
    sampleStrong.auditChainSecret ≠ .ok a.hash

/-- No row has an identifier that the sample remittances draw. -/
abbrev sampleIdsFresh (tariffs : Table tariffSchema) : Prop :=
  (sampleOpen tariffs).paymentReceipts.rows.length = 0 ∧ (sampleOpen tariffs).journals.rows.length = 0 ∧
    (∀ m ∈ (sampleOpen tariffs).outboxMessages.rows, m.id ≠ (sampleDraws 3).uuid 2) ∧
    ∀ a ∈ (sampleOpen tariffs).auditEvents.rows, a.eventId ≠ (sampleDraws 3).uuid 3

/-- The order and the intent of the sample, over an amount. -/
abbrev sampleAwaits (tariffs : Table tariffSchema) (amountMinor vatMinor : ℤ) : Prop :=
  ∃ order ∈ (sampleOpen tariffs).orders.rows, ∃ intent ∈ (sampleOpen tariffs).paymentIntents.rows,
    order.id = ⟨100⟩ ∧ order.status = .awaitingPayment ∧ order.vatMinor = vatMinor ∧ intent.orderId = order.id ∧
    intent.status = .awaitingPayment ∧ amountMinor = intent.amountMinor ∧ "NGN" = intent.currency ∧
    reference "PAY" sampleNow (sampleDraws 2).choices = intent.reference

/-- The sample remittances are granted what they need. -/
theorem sample_granted {tariffs : Table tariffSchema} {status : ReceiptStatus} {advice : RemittanceAdvice}
    (hids : sampleIdsFresh tariffs) (hhash : sampleHashFresh tariffs status advice) :
    Granted sampleStrong (sampleDraws 3) sampleNow (ingestRecord ((sampleDraws 3).uuid 0) status advice (some ⟨100⟩))
      (sampleOpen tariffs) := by
  obtain ⟨hreceipts, hjournals, hmessages, hevents⟩ := hids
  refine ⟨fun message => ?_, fun key message => ?_, by decide, ?_, ?_, hmessages, hevents, hhash⟩
  · simp [sampleStrong]
  · simp [sampleStrong]
  · rw [List.length_eq_zero_iff.mp hreceipts]
    exact fun _ h => absurd h List.not_mem_nil
  · rw [List.length_eq_zero_iff.mp hjournals]
    exact fun _ h => absurd h List.not_mem_nil

/-- The sample remittances declare the reference of their intent. -/
theorem sample_declares {tariffs : Table tariffSchema} {intent : PaymentIntent} {amountMinor : ℤ} {currency : String}
    (hids : sampleIdsFresh tariffs) (hintent : intent ∈ (sampleOpen tariffs).paymentIntents.rows)
    (hreference : reference "PAY" sampleNow (sampleDraws 2).choices = intent.reference)
    (hamount : 0 < amountMinor ∧ amountMinor ≤ 10 ^ 15) (hcurrency : currency.length = 3) :
    Declares (sampleAdvice "BANK-1" amountMinor currency) intent (sampleOpen tariffs) := by
  have hlengths : (6 ≤ "BANK-1".length ∧ "BANK-1".length ≤ 128) ∧
      6 ≤ (reference "PAY" sampleNow (sampleDraws 2).choices).length ∧
        (reference "PAY" sampleNow (sampleDraws 2).choices).length ≤ 64 := by
    decide
  refine ⟨⟨hlengths.1, hlengths.2, hamount, hcurrency⟩, hintent, hreference, ?_⟩
  rw [List.length_eq_zero_iff.mp hids.1]
  exact fun _ h => absurd h List.not_mem_nil

/-- What the sample remittances find. -/
theorem sampleOpen_taxed : sampleIdsFresh sampleTariffs ∧ sampleAwaits sampleTariffs 1344 94 ∧
    sampleHashFresh sampleTariffs .matched (sampleAdvice "BANK-1" 1344 "NGN") ∧
    sampleHashFresh sampleTariffs .amountMismatch (sampleAdvice "BANK-1" 7 "NGN") ∧
    sampleHashFresh sampleTariffs .amountMismatch (sampleAdvice "BANK-1" 1344 "EUR") ∧
    (ingestRemittance sampleStrong (sampleDraws 3) (sampleAdvice "BANK-1" 1344 "EUR") sampleNow
      (sampleOpen sampleTariffs)).isOk = false := by
  decide +kernel

/-- An order with VAT is settled by its exact payment. -/
theorem exact_payment_settles_sample :
    ∃ intent order, Exact (sampleAdvice "BANK-1" 1344 "NGN") intent order (sampleOpen sampleTariffs) ∧
      ∃ db', ingestRemittance sampleStrong (sampleDraws 3) (sampleAdvice "BANK-1" 1344 "NGN") sampleNow
          (sampleOpen sampleTariffs) = .ok (⟨⟨300⟩, .matched, some order.id, false⟩, db') ∧
        Settles (sampleDraws 3) (sampleAdvice "BANK-1" 1344 "NGN") sampleNow intent order (sampleOpen sampleTariffs)
          db' := by
  obtain ⟨hids, ⟨order, horder, intent, hintent, hid, hstatus, hvat, hof, hopen, hamount, hcurrency, hreference⟩, hhash,
    -⟩ := sampleOpen_taxed
  have hexact : Exact (sampleAdvice "BANK-1" 1344 "NGN") intent order (sampleOpen sampleTariffs) :=
    ⟨sample_declares hids hintent hreference (by decide) (by decide), horder, hof, hstatus, hopen, hamount,
      hcurrency⟩
  have hgranted := sample_granted hids hhash
  rw [← hid] at hgranted
  refine ⟨intent, order, hexact, ?_⟩
  exact (exact_payment_settles_iff sampleStrong sampleCompanies sampleTariffs sampleApproved (sampleDraws 3)
    (sampleAdvice "BANK-1" 1344 "NGN") sampleNow intent order hexact hgranted).mpr
    ⟨by omega, by decide, by decide, by decide, by decide⟩

/-- The row of a tariff without VAT satisfies its constraints. -/
theorem sampleExempt_valid : tariffSchema.Valid [⟨⟨2⟩, "beverages", 1250, "NGN", 0, 0, none⟩] := by decide +kernel

/-- A tariff without VAT. -/
def sampleExempt : Table tariffSchema := ⟨[⟨⟨2⟩, "beverages", 1250, "NGN", 0, 0, none⟩], sampleExempt_valid⟩

/-- The exact payment of an order without VAT is refused: a posting must be positive. -/
theorem not_exact_payment_settles :
    (∃ intent order, Exact (sampleAdvice "BANK-1" 1250 "NGN") intent order (sampleOpen sampleExempt) ∧
      Granted sampleStrong (sampleDraws 3) sampleNow (ingestRecord ((sampleDraws 3).uuid 0) .matched
        (sampleAdvice "BANK-1" 1250 "NGN") (some order.id)) (sampleOpen sampleExempt)) ∧
      (ingestRemittance sampleStrong (sampleDraws 3) (sampleAdvice "BANK-1" 1250 "NGN") sampleNow
        (sampleOpen sampleExempt)).isOk = false := by
  have hfacts : sampleIdsFresh sampleExempt ∧ sampleAwaits sampleExempt 1250 0 ∧
      sampleHashFresh sampleExempt .matched (sampleAdvice "BANK-1" 1250 "NGN") ∧
      (ingestRemittance sampleStrong (sampleDraws 3) (sampleAdvice "BANK-1" 1250 "NGN") sampleNow
        (sampleOpen sampleExempt)).isOk = false := by
    decide +kernel
  obtain ⟨hids, ⟨order, horder, intent, hintent, hid, hstatus, hvat, hof, hopen, hamount, hcurrency, hreference⟩, hhash,
    hrefused⟩ := hfacts
  have hgranted := sample_granted hids hhash
  rw [← hid] at hgranted
  exact ⟨⟨intent, order, ⟨sample_declares hids hintent hreference (by decide) (by decide +kernel), horder, hof, hstatus,
    hopen, hamount, hcurrency⟩, hgranted⟩, hrefused⟩

/-! ### A wrong payment -/

/-- A remittance that differs from its intent in amount or currency, or finds it no longer open. -/
structure Wrong (advice : RemittanceAdvice) (intent : PaymentIntent) (db : Db) : Prop
    extends Declares advice intent db where
  differs : advice.amountMinor ≠ intent.amountMinor ∨ advice.currency ≠ intent.currency ∨
    intent.status ≠ .awaitingPayment

section Wrong

variable {draws : Draws} {advice : RemittanceAdvice} {now : Time} {intent : PaymentIntent}

/-- A wrong payment is a mismatch. -/
theorem Wrong.classify (h : Wrong advice intent db) : TaxStamp.classify (some intent) advice = .amountMismatch := by
  rcases classify_some intent advice with hstatus | hstatus
  · exact hstatus
  · obtain ⟨hamount, hcurrency, hopen⟩ := classify_matched hstatus
    rcases h.differs with hne | hne | hne
    · exact absurd hamount.symm hne
    · exact absurd hcurrency.symm hne
    · exact absurd hopen hne

/-- The journal of a wrong payment is taken. -/
theorem Wrong.journal_accepted (h : Wrong advice intent db) (hintake : Intake settings db)
    (hid : ∀ j ∈ db.journals.rows, j.id ≠ draws.uuid 1) (hlength : advice.externalReference.length ≤ 118)
    (hnul : '\x00' ∉ advice.externalReference.toList) (hcurrency : '\x00' ∉ advice.currency.toList) :
    db.journals.Accepts ⟨draws.uuid 1, "unapplied:" ++ advice.externalReference, .unappliedReceipt, advice.currency,
      none, some (draws.uuid 0), now⟩ := by
  refine ⟨(Bool.and_eq_true _ _).mpr ⟨?_, varchar_iff.mpr ⟨h.accepted.currency.le, hcurrency⟩⟩, rfl, fun j hj => ?_⟩
  · refine (varchar_append (by decide)).mpr ⟨?_, hnul⟩
    have hprefix : "unapplied:".length = 10 := by decide
    omega
  · simp only [journalSchema, decide_eq_false_iff_not, not_or]
    exact ⟨hid j hj, (hintake.journal_free h.unseen j hj).2⟩

/-- The message for the review is taken. -/
theorem Wrong.message_accepted (h : Wrong advice intent db) (hintake : Intake settings db)
    (hid : ∀ m ∈ db.outboxMessages.rows, m.id ≠ draws.uuid 2) (hnul : '\x00' ∉ advice.externalReference.toList) :
    db.outboxMessages.Accepts (reviewMessage (draws.uuid 2) (draws.uuid 0) advice intent now) := by
  refine ⟨?_, rfl, fun m hm => ?_⟩
  · have hkey : varchar 200 ("payment.mismatch:" ++ advice.externalReference) = true := by
      refine (varchar_append (by decide)).mpr ⟨?_, hnul⟩
      have hprefix : "payment.mismatch:".length = 17 := by decide
      have hlength := h.accepted.externalReference.2
      omega
    have hdeclared : '\x00' ∉ advice.declaredReference.toList := by
      have hfits := db.paymentIntents.valid.fits intent h.known
      simp only [paymentIntentSchema, Bool.and_eq_true, varchar_iff] at hfits
      rw [h.declared]
      exact hfits.1.1.2
    have hpayload : jsonb (.obj [("receipt_id", .str (draws.uuid 0).str),
        ("declared_reference", .str advice.declaredReference), ("amount_minor", .int advice.amountMinor),
        ("expected_minor", .int intent.amountMinor)]) = true := by
      simp [jsonb, Json.occurs, Json.occursField, Json.isNulText, Uuid.nul_not_mem_str, hdeclared]
    simp only [outboxMessageSchema, reviewMessage, OutboxMessage.pending, hkey, hpayload, Option.all_none, Bool.and_true]
    decide
  · simp only [outboxMessageSchema, reviewMessage, OutboxMessage.pending, decide_eq_false_iff_not, not_or]
    exact ⟨hid m hm, hintake.reviewKey_free h.unseen m hm⟩

/-- A wrong payment is held when its currency is supported, its reference leaves room for the journal's, and it can be
read. -/
theorem Wrong.quarantined (h : Wrong advice intent db) (hsound : Sound settings db) (hintake : Intake settings db)
    (hgranted : Granted settings draws now (ingestRecord (draws.uuid 0) .amountMismatch advice (some intent.orderId)) db)
    (hsupported : (currencyExponents.lookup advice.currency).isSome = true)
    (hlength : advice.externalReference.length ≤ 118) (hreadable : advice.Readable) :
    ∃ db', ingestRemittance settings draws advice now db =
        .ok (⟨draws.uuid 0, .amountMismatch, some intent.orderId, false⟩, db') ∧
      Quarantines draws advice now intent db db' := by
  have hnul : '\x00' ∉ advice.currency.toList := by
    rcases supported_iff.mp hsupported with hngn | husd
    · rw [hngn]
      decide
    · rw [husd]
      decide
  obtain ⟨order, horder, hid⟩ := List.mem_map.mp (hsound.reconciled.closed.intents intent h.known)
  rw [← h.classify] at hgranted
  have happlied : ∀ payloadHash (R : Table paymentReceiptSchema),
      R.rows = db.paymentReceipts.rows ++ [newReceipt (draws.uuid 0) (some intent) advice payloadHash now] →
      ∃ db₁, applyReceipt draws (some intent) (newReceipt (draws.uuid 0) (some intent) advice payloadHash now) advice now
        (Tables.paymentReceipts.set R db) = .ok (some intent.orderId, db₁) ∧ db₁.auditEvents = db.auditEvents ∧
        ∀ A, Quarantines draws advice now intent db (Tables.auditEvents.set A db₁) := by
    intro payloadHash R hR
    obtain ⟨J, E, M, hJ, hE, hM, hquarantine⟩ := quarantineFunds_of_accepts (Tables.paymentReceipts.set R db)
      (newReceipt (draws.uuid 0) (some intent) advice payloadHash now) rfl h.accepted hsupported
      (h.journal_accepted hintake hgranted.journal hlength hreadable.reference hnul)
      (h.message_accepted hintake hgranted.message hreadable.reference)
    refine ⟨Tables.outboxMessages.set M (Tables.ledgerEntries.set E (Tables.journals.set J
      (Tables.paymentReceipts.set R db))), ?_, rfl, fun A => ⟨⟨payloadHash, hR⟩, h.classify, hJ, hE, hM, rfl, rfl⟩⟩
    have hstatus : (newReceipt (draws.uuid 0) (some intent) advice payloadHash now).status = .amountMismatch :=
      h.classify
    simp only [applyReceipt, hstatus, Tx.bind_ok, Tx.pure_ok]
    exact ⟨_, _, hquarantine, trivial, rfl⟩
  obtain ⟨db₁, A, hquarantines, hingest⟩ := ingestNew_of_applied h.toDeclares hreadable hnul hsound.chained
    (hintake.audited_fits horder).1 hgranted _ happlied
  rw [h.classify] at hingest
  exact ⟨_, h.toDeclares.ingest.mpr hingest, hquarantines A⟩

end Wrong

/-- A wrong payment is held as unapplied, in every reachable state, exactly when its currency is supported, its external
reference has at most 118 characters, and the remittance can be read. -/
theorem wrong_payment_quarantined_iff (settings : Settings) (companies : Table companySchema)
    (tariffs : Table tariffSchema) (events : List Event) (draws : Draws) (advice : RemittanceAdvice) (now : Time)
    (intent : PaymentIntent)
    (hwrong : Wrong advice intent (run (step settings) (.initial companies tariffs) events).db)
    (hgranted : Granted settings draws now (ingestRecord (draws.uuid 0) .amountMismatch advice (some intent.orderId))
      (run (step settings) (.initial companies tariffs) events).db) :
    let db := (run (step settings) (.initial companies tariffs) events).db
    (∃ db', ingestRemittance settings draws advice now db =
        .ok (⟨draws.uuid 0, .amountMismatch, some intent.orderId, false⟩, db') ∧
      Quarantines draws advice now intent db db') ↔
      (advice.currency = "NGN" ∨ advice.currency = "USD") ∧ advice.externalReference.length ≤ 118 ∧ advice.Readable := by
  intro db
  constructor
  · rintro ⟨db', hingest, hquarantines⟩
    obtain ⟨hraw, hdate⟩ := ingestNew_readable (hwrong.toDeclares.ingest.mp hingest)
    have hposted : ⟨draws.uuid 1, "unapplied:" ++ advice.externalReference, .unappliedReceipt, advice.currency, none,
        some (draws.uuid 0), now⟩ ∈ db'.journals.rows := by
      rw [hquarantines.journal]
      exact List.mem_append_right _ (List.mem_singleton.mpr rfl)
    have hjournal := db'.journals.valid.fits _ hposted
    simp only [journalSchema, Bool.and_eq_true] at hjournal
    obtain ⟨hlength, hnul⟩ := (varchar_append (by decide)).mp hjournal.1
    have hprefix : "unapplied:".length = 10 := by decide
    -- Every journal of a reachable state is in a supported currency.
    have hreached : (run (step settings) (.initial companies tariffs)
        (events ++ [.ingestRemittance draws advice now])).db = db' := by
      rw [run_concat]
      change (ingestRemittance settings draws advice now).commit db = db'
      rw [Tx.commit, hingest]
    have hsupported := (Sound.run settings companies tariffs (events ++ [.ingestRemittance draws advice now])).supported
    rw [hreached] at hsupported
    exact ⟨supported_iff.mp (hsupported _ hposted), by omega, hraw, hdate, hnul⟩
  · rintro ⟨hcurrency, hlength, hreadable⟩
    exact hwrong.quarantined (Sound.run settings companies tariffs events) (Intake.run settings companies tariffs events)
      hgranted (supported_iff.mpr hcurrency) hlength hreadable

/-- A payment of the wrong amount is held. -/
theorem wrong_payment_quarantined_sample :
    ∃ intent, Wrong (sampleAdvice "BANK-1" 7 "NGN") intent (sampleOpen sampleTariffs) ∧
      ∃ db', ingestRemittance sampleStrong (sampleDraws 3) (sampleAdvice "BANK-1" 7 "NGN") sampleNow
          (sampleOpen sampleTariffs) = .ok (⟨⟨300⟩, .amountMismatch, some intent.orderId, false⟩, db') ∧
        Quarantines (sampleDraws 3) (sampleAdvice "BANK-1" 7 "NGN") sampleNow intent (sampleOpen sampleTariffs) db' := by
  obtain ⟨hids, ⟨order, -, intent, hintent, hid, -, -, hof, -, hamount, -, hreference⟩, -, hhash, -⟩ := sampleOpen_taxed
  have hdiffers : 7 ≠ intent.amountMinor := by omega
  have hwrong : Wrong (sampleAdvice "BANK-1" 7 "NGN") intent (sampleOpen sampleTariffs) :=
    ⟨sample_declares hids hintent hreference (by decide) (by decide), .inl hdiffers⟩
  have hgranted := sample_granted hids hhash
  rw [← hid, ← hof] at hgranted
  refine ⟨intent, hwrong, ?_⟩
  exact (wrong_payment_quarantined_iff sampleStrong sampleCompanies sampleTariffs sampleApproved (sampleDraws 3)
    (sampleAdvice "BANK-1" 7 "NGN") sampleNow intent hwrong hgranted).mpr
    ⟨.inl rfl, by decide, by decide, by decide, by decide⟩

/-- A payment in euros is refused: it leaves no receipt. -/
theorem not_wrong_payment_quarantined :
    (∃ intent, Wrong (sampleAdvice "BANK-1" 1344 "EUR") intent (sampleOpen sampleTariffs) ∧
      Granted sampleStrong (sampleDraws 3) sampleNow (ingestRecord ((sampleDraws 3).uuid 0) .amountMismatch
        (sampleAdvice "BANK-1" 1344 "EUR") (some intent.orderId)) (sampleOpen sampleTariffs)) ∧
      (ingestRemittance sampleStrong (sampleDraws 3) (sampleAdvice "BANK-1" 1344 "EUR") sampleNow
        (sampleOpen sampleTariffs)).isOk = false := by
  obtain ⟨hids, ⟨order, -, intent, hintent, hid, -, -, hof, -, -, hcurrency, hreference⟩, -, -, hhash, hrefused⟩ :=
    sampleOpen_taxed
  have hdiffers : "EUR" ≠ intent.currency := by
    rw [← hcurrency]
    decide
  have hgranted := sample_granted hids hhash
  rw [← hid, ← hof] at hgranted
  exact ⟨⟨intent, ⟨sample_declares hids hintent hreference (by decide) (by decide), .inr (.inl hdiffers)⟩,
    hgranted⟩, hrefused⟩

end TaxStamp
