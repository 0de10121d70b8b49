import TaxStamp.FalseAlarms
import TaxStamp.Lib.Accepts
import TaxStamp.PaidOrders
import TaxStamp.Replays
import TaxStamp.TigerBeetleWorkers

/-!
# What the payment tables take next

Whether a remittance is taken is decided by constraints of tables it only adds to: the
reference of its journal and the dedupe key of its message must not be taken, its amounts
must be in a supported currency, and its audit event must fit. Journals and messages are
named after the remittances and the orders that caused them, and every order carries a
supported currency and has been audited, so a remittance that has not been seen before
finds its names free.
-/

namespace TaxStamp

open Lib

/-- What the dedupe key of a recorded message is about. -/
inductive KeyOf (db : Db) : String → Prop
  | payment (id : Uuid) : KeyOf db ("order.awaiting_payment:" ++ id.str)
  | issue (o : Order) (ho : o ∈ db.orders.rows) (hpaid : o.status.isPaid = true) : KeyOf db (issueKey o.id)
  | review (r : PaymentReceipt) (hr : r ∈ db.paymentReceipts.rows) :
      KeyOf db ("payment.mismatch:" ++ r.externalReference)
  | anchor (id : Uuid) : KeyOf db ("batch.anchor:" ++ id.str)
  | transfer (i : TigerBeetleLedgerIntent) (hi : i ∈ db.tigerbeetleLedgerIntents.rows) :
      KeyOf db ("tigerbeetle-transfer:" ++ i.tigerbeetleTransferId)

/-- Every message and every journal is named after its cause, and every order has a supported currency and has
been audited under the configured revision. -/
structure Intake (settings : Settings) (db : Db) : Prop where
  keys : ∀ m ∈ db.outboxMessages.rows, KeyOf db m.dedupeKey
  journals : ∀ j ∈ db.journals.rows, ∃ r ∈ db.paymentReceipts.rows,
    j.reference = "settlement:" ++ r.externalReference ∨ j.reference = "unapplied:" ++ r.externalReference
  supported : ∀ o ∈ db.orders.rows, (currencyExponents.lookup o.currency).isSome = true
  audited : ∀ o ∈ db.orders.rows, ∃ a ∈ db.auditEvents.rows, a.revision = settings.revision ∧ a.targetId = o.id.str

variable {settings : Settings} {db db' : Db}

/-! ### What a step keeps -/

/-- Orders are neither lost nor priced again, and paid ones stay paid. -/
structure KeepsOrders (db db' : Db) : Prop where
  paid : ∀ o ∈ db.orders.rows, o.status.isPaid = true → ∃ o' ∈ db'.orders.rows, o'.id = o.id ∧ o'.status.isPaid = true
  priced : ∀ o' ∈ db'.orders.rows, ∃ o ∈ db.orders.rows, o'.id = o.id ∧ o'.currency = o.currency

/-- A paid order stays paid. -/
theorem Order.Moved.isPaid {o o' : Order} (h : o.Moved o') (hpaid : o.status.isPaid = true) :
    o'.status.isPaid = true := by
  obtain rfl | ⟨status, now, hmoves, rfl⟩ := h
  · exact hpaid
  · change status.isPaid = true
    revert hmoves hpaid
    cases o.status <;> cases status <;> decide

/-- Every transaction other than a submission keeps the orders. -/
theorem Change.keepsOrders {s : Platform} {e : Event} (h : Change settings s e db')
    (hother : ∀ compliance draws actor command now key, e ≠ .submitOrder compliance draws actor command now key) :
    KeepsOrders s.db db' where
  paid o ho hpaid := by
    obtain ⟨o', ho', hmoved⟩ := h.orderStep.persists ho
    exact ⟨o', ho', hmoved.id, hmoved.isPaid hpaid⟩
  priced o' ho' := by
    obtain hsubmits | ⟨o, ho, hmoved⟩ := h.orderStep.origin ho'
    · cases e with
      | submitOrder compliance draws actor command now key =>
        exact absurd rfl (hother compliance draws actor command now key)
      | _ => exact absurd hsubmits id
    · exact ⟨o, ho, hmoved.id, hmoved.currency⟩

/-- A key is still about the same thing when nothing is lost. -/
theorem KeyOf.keep {key : String} (h : KeyOf db key)
    (hpaid : ∀ o ∈ db.orders.rows, o.status.isPaid = true →
      ∃ o' ∈ db'.orders.rows, o'.id = o.id ∧ o'.status.isPaid = true)
    (hreceipts : ∀ r ∈ db.paymentReceipts.rows, r ∈ db'.paymentReceipts.rows)
    (hintents : ∀ i ∈ db.tigerbeetleLedgerIntents.rows,
      ∃ i' ∈ db'.tigerbeetleLedgerIntents.rows, i'.tigerbeetleTransferId = i.tigerbeetleTransferId) : KeyOf db' key := by
  cases h with
  | payment id => exact .payment id
  | issue o ho hstatus =>
    obtain ⟨o', ho', hid, hstatus'⟩ := hpaid o ho hstatus
    rw [← hid]
    exact .issue o' ho' hstatus'
  | review r hr => exact .review r (hreceipts r hr)
  | anchor id => exact .anchor id
  | transfer i hi =>
    obtain ⟨i', hi', hid⟩ := hintents i hi
    rw [← hid]
    exact .transfer i' hi'

/-- The keys of an outbox after an announcement. -/
theorem Announced.keys {messageId : Uuid} {eventType dedupeKey : String} {payload : JsonObject}
    {rows rows' : List OutboxMessage} (h : Announced messageId eventType dedupeKey payload rows rows') :
    ∀ m' ∈ rows', (∃ m ∈ rows, m.dedupeKey = m'.dedupeKey) ∨ m'.dedupeKey = dedupeKey := by
  intro m' hm'
  obtain ⟨aggregateType, aggregateId, availableAt, rfl | ⟨rfl, -⟩⟩ := h
  · rcases List.mem_append.mp hm' with hold | hnew
    · exact .inl ⟨m', hold, rfl⟩
    · rw [List.mem_singleton.mp hnew]
      exact .inr rfl
  · exact .inl ⟨m', hm', rfl⟩

/-- The message keys of a database are old ones, or about something it holds. -/
def KeysFrom (db db' : Db) : Prop :=
  ∀ m' ∈ db'.outboxMessages.rows, (∃ m ∈ db.outboxMessages.rows, m.dedupeKey = m'.dedupeKey) ∨ KeyOf db' m'.dedupeKey

/-- An outbox that is the same has the same keys. -/
theorem KeysFrom.of_eq (h : db'.outboxMessages = db.outboxMessages) : KeysFrom db db' := by
  intro m hm
  rw [h] at hm
  exact .inl ⟨m, hm, rfl⟩

/-- Messages that are rewritten keep their keys. -/
theorem KeysFrom.of_map {f : OutboxMessage → OutboxMessage} (h : db'.outboxMessages.rows = db.outboxMessages.rows.map f)
    (hkey : ∀ m, (f m).dedupeKey = m.dedupeKey) : KeysFrom db db' := by
  intro m' hm'
  rw [h] at hm'
  obtain ⟨m, hm, rfl⟩ := List.mem_map.mp hm'
  exact .inl ⟨m, hm, (hkey m).symm⟩

/-- An announcement adds its key. -/
theorem KeysFrom.of_announced {messageId : Uuid} {eventType dedupeKey : String} {payload : JsonObject}
    (h : Announced messageId eventType dedupeKey payload db.outboxMessages.rows db'.outboxMessages.rows)
    (hkey : KeyOf db' dedupeKey) : KeysFrom db db' := by
  intro m' hm'
  rcases h.keys m' hm' with hold | hnew
  · exact .inl hold
  · rw [hnew]
    exact .inr hkey

/-- A request is about a row of its database. -/
theorem Announcement.keyOf {db' : Db} {e : Event} {eventType dedupeKey : String} (h : Announcement db' e eventType dedupeKey) :
    KeyOf db' dedupeKey := by
  cases h with
  | payment e order => exact .payment order.id
  | review e receipt hreceipt => exact .review receipt hreceipt
  | issue e order horder hpaid => exact .issue order horder (by rw [hpaid]; rfl)
  | anchor draws orderId chunkSize now batchId => exact .anchor batchId
  | transfer e intent hintent => exact .transfer intent hintent

/-- Every transaction names its messages after rows. -/
theorem step_keysFrom (settings : Settings) (s : Platform) (e : Event) : KeysFrom s.db (step settings s e).db := by
  cases step_outbox settings s e with
  | quiet hM => exact .of_eq hM
  | requested messageId eventType dedupeKey payload hannouncement hannounced => exact .of_announced hannounced hannouncement.keyOf
  | rewritten hrelays f hM hkey => exact .of_map hM hkey

/-! ### What a submission adds -/

/-- The event that a transaction appends is of the configured revision and about the target it names. -/
theorem recordAuditEvent_appended {draws : Draws} {eventId : Uuid} {actor : AuditActor} {record : AuditRecord}
    {occurredAt : Time} {event : AuditEvent}
    (h : recordAuditEvent settings draws eventId actor record occurredAt db = .ok (event, db')) :
    event ∈ db'.auditEvents.rows ∧ event.revision = settings.revision ∧ event.targetId = record.targetId := by
  simp only [recordAuditEvent, lastAuditEvent, Tx.bind_ok, selectFirst_ok, Tx.lift_ok, insertRow_ok,
    Tx.pure_ok, List.filter_true] at h
  obtain ⟨last, db₁, ⟨hlast, rfl⟩, hash, db₂, ⟨hhash, rfl⟩, -, db₃, ⟨A, hA, rfl⟩, rfl, rfl⟩ := h
  refine ⟨?_, rfl, rfl⟩
  change _ ∈ A.rows
  rw [hA]
  exact List.mem_append_right _ (List.mem_singleton.mpr rfl)

/-- An order is priced in a supported currency. -/
theorem draftOrder_supported {compliance : ComplianceService} {draws : Draws} {actor : Actor}
    {command : SubmitOrderCommand} {now : Time} {draft : Order} {compliant : Bool}
    (h : draftOrder settings compliance draws actor command now db = .ok ((draft, compliant), db')) :
    (currencyExponents.lookup draft.currency).isSome = true := by
  simp only [draftOrder, currentTariff, Tx.bind_ok, Actor.requireRole_ok, Actor.requireCompany_ok,
    Tx.require_ok, fetch_ok, selectFirst_ok, Tx.orRefuse_ok, Tx.lift_ok, Tx.pure_ok] at h
  obtain ⟨-, db₁, ⟨-, rfl⟩, -, db₂, ⟨-, rfl⟩, -, db₃, ⟨-, rfl⟩, -, db₄, ⟨-, rfl⟩, company, db₅, ⟨-, rfl⟩, -,
    db₆, ⟨-, rfl⟩, tariff, db₇, ⟨-, db₈, ⟨-, rfl⟩, -, rfl⟩, unitPrice, db₉, ⟨-, rfl⟩, breakdown, db₁₀,
    ⟨-, rfl⟩, outcome, db₁₁, ⟨-, rfl⟩, hdraft, rfl⟩ := h
  injection hdraft with hdraft _
  rw [hdraft]
  exact breakdown.total.supported

/-- A submitted order has a supported currency and is audited. -/
theorem submitOrder_intake {compliance : ComplianceService} {draws : Draws} {actor : Actor}
    {command : SubmitOrderCommand} {now : Time} {idempotencyKey : Option String} {order : Order}
    (h : submitOrder settings compliance draws actor command now idempotencyKey db = .ok (order, db')) :
    (currencyExponents.lookup order.currency).isSome = true ∧
      ∃ a ∈ db'.auditEvents.rows, a.revision = settings.revision ∧ a.targetId = order.id.str := by
  simp only [submitOrder, Tx.bind_ok] at h
  obtain ⟨⟨draft, compliant⟩, db₁, hread, hrest⟩ := h
  obtain ⟨hdraft, rfl⟩ := draftOrder_ok hread
  simp only [insertRow_ok, Tx.pure_ok] at hrest
  obtain ⟨-, db₂, ⟨O, -, rfl⟩, -, db₃, ⟨T, -, rfl⟩, moved, db₄, hsettle, event, db₅, haudit, rfl, rfl⟩ := hrest
  obtain ⟨rfl, -⟩ := settleCompliance_ok hdraft.status hsettle
  obtain ⟨hmem, hrevision, htarget⟩ := recordAuditEvent_appended haudit
  have hsupported : (currencyExponents.lookup draft.currency).isSome = true := draftOrder_supported hread
  exact ⟨hsupported, event, hmem, hrevision, htarget⟩

/-! ### Runs -/

/-- Audit events are never removed. -/
theorem AuditGrows.mem {rows rows' : List AuditEvent} (h : AuditGrows settings rows rows') {a : AuditEvent}
    (ha : a ∈ rows) : a ∈ rows' := by
  rcases h with rfl | ⟨event, -, rfl⟩
  · exact ha
  · exact List.mem_append_left _ ha

/-- A journal is named after its receipt. -/
theorem Change.journals {s : Platform} {e : Event} (h : Change settings s e db') {j : Journal}
    (hj : j ∈ db'.journals.rows) :
    j ∈ s.db.journals.rows ∨ ∃ r ∈ db'.paymentReceipts.rows,
      j.reference = "settlement:" ++ r.externalReference ∨ j.reference = "unapplied:" ++ r.externalReference := by
  have hposted : ∀ {R : Table paymentReceiptSchema} {J : Table journalSchema} {r : PaymentReceipt} {new : Journal},
      R.rows = s.db.paymentReceipts.rows ++ [r] → J.rows = s.db.journals.rows ++ [new] → j ∈ J.rows →
      new.reference = "settlement:" ++ r.externalReference ∨ new.reference = "unapplied:" ++ r.externalReference →
      j ∈ s.db.journals.rows ∨ ∃ r ∈ R.rows,
        j.reference = "settlement:" ++ r.externalReference ∨ j.reference = "unapplied:" ++ r.externalReference := by
    intro R J r new hR hJ hmem hname
    rw [hJ, List.mem_append, List.mem_singleton] at hmem
    rcases hmem with hold | rfl
    · exact .inl hold
    · refine .inr ⟨r, ?_, hname⟩
      rw [hR]
      exact List.mem_append_right _ (List.mem_singleton.mpr rfl)
  cases h with
  | sameCore e db' hsame =>
    rw [hsame.journals] at hj
    exact .inl hj
  | submitted compliance draws actor command now key draft compliant O T A hdraft hfresh hO hT hA => exact .inl hj
  | decided draws actor command now key order P db₁ A horder hid hstatus hrole hsubmitter hfirst hP heffect hA =>
    cases heffect <;> exact .inl hj
  | cancelled draws actor orderId reason now order O T A horder hid hmay hlegal hO hT hA => exact .inl hj
  | ingested draws advice now db' heffect =>
    cases heffect with
    | replayed receipt hmem hreference => exact .inl hj
    | unknown payloadHash R A hR hA => exact .inl hj
    | mismatched intent payloadHash R J E M A hintent hstatus hR hJ hE hsupported hM hannounced hA =>
      exact hposted hR hJ hj (.inr rfl)
    | settled intent order payloadHash R O T I J E M A hintent hstatus horder hid hawaiting hR hO hT hI hJ hE
        hsupported hM hannounced hA => exact hposted hR hJ hj (.inl rfl)
  | issued draws orderId chunkSize now db' heffect =>
    cases heffect
    exact .inl hj
  | inspected draws actor command now db' heffect =>
    cases heffect
    exact .inl hj
  | activated index draws actor now key a db' ha heffect =>
    cases heffect
    exact .inl hj
  | retired e db' heffect =>
    cases heffect
    exact .inl hj

/-- No step loses a ledger intent. -/
theorem step_keepsTransfers (settings : Settings) (s : Platform) (e : Event) {i : TigerBeetleLedgerIntent}
    (hi : i ∈ s.db.tigerbeetleLedgerIntents.rows) :
    ∃ i' ∈ (step settings s e).db.tigerbeetleLedgerIntents.rows, i'.tigerbeetleTransferId = i.tigerbeetleTransferId := by
  have hkept : ∃ i' ∈ (step settings s e).db.tigerbeetleLedgerIntents.rows, i.Advances i' := by
    by_cases hwork : ∃ work, e = .ledgerWork work
    · obtain ⟨work, rfl⟩ := hwork
      exact (work.commit_outcome settings s.db).intentsAdvance.kept i hi
    · exact (step_intentsAdvance settings s e (not_exists.mp hwork)).kept i hi
  obtain ⟨i', hi', hadvances⟩ := hkept
  exact ⟨i', hi', congrArg TigerBeetleTransfer.transferId hadvances.transfer⟩

/-- A step that keeps the orders keeps everything named. -/
theorem Intake.keep {s : Platform} {e : Event} (h : Intake settings s.db)
    (horders : KeepsOrders s.db (step settings s e).db) : Intake settings (step settings s e).db := by
  have hchange := step_change settings s e
  have hreceipts := hchange.keepsPayments.receipts
  refine ⟨fun m hm => ?_, fun j hj => ?_, fun o ho => ?_, fun o ho => ?_⟩
  · rcases step_keysFrom settings s e m hm with ⟨old, hold, hkey⟩ | hnew
    · rw [← hkey]
      exact (h.keys old hold).keep horders.paid hreceipts fun i hi => step_keepsTransfers settings s e hi
    · exact hnew
  · rcases hchange.journals hj with hold | hnew
    · obtain ⟨r, hr, hname⟩ := h.journals j hold
      exact ⟨r, hreceipts r hr, hname⟩
    · exact hnew
  · obtain ⟨old, hold, -, hcurrency⟩ := horders.priced o ho
    rw [hcurrency]
    exact h.supported old hold
  · obtain ⟨old, hold, hid, -⟩ := horders.priced o ho
    obtain ⟨a, ha, hrevision, htarget⟩ := h.audited old hold
    rw [hid]
    exact ⟨a, (step_auditGrows settings s e).mem ha, hrevision, htarget⟩

/-- A submission adds an order with a supported currency that is audited. -/
theorem Intake.submitted {compliance : ComplianceService} {draws : Draws} {actor : Actor} {command : SubmitOrderCommand}
    {now : Time} {key : Option String} {order : Order} (h : Intake settings db)
    (hok : submitOrder settings compliance draws actor command now key db = .ok (order, db')) :
    Intake settings db' := by
  obtain ⟨hsupported, haudited⟩ := submitOrder_intake hok
  obtain ⟨draft, compliant, O, T, A, -, -, -, hO, -, hA, rfl⟩ := submitOrder_ok hok
  have hmem : ∀ o ∈ O.rows, o ∈ db.orders.rows ∨ o = order := by
    intro o ho
    rw [hO, List.mem_append, List.mem_singleton] at ho
    exact ho
  refine ⟨fun m hm => ?_, h.journals, fun o ho => ?_, fun o ho => ?_⟩
  · refine (h.keys m hm).keep (fun o ho hpaid => ⟨o, ?_, rfl, hpaid⟩) (fun r hr => hr) fun i hi => ⟨i, hi, rfl⟩
    change o ∈ O.rows
    rw [hO]
    exact List.mem_append_left _ ho
  · rcases hmem o ho with hold | rfl
    · exact h.supported o hold
    · exact hsupported
  · rcases hmem o ho with hold | rfl
    · obtain ⟨a, ha, hfields⟩ := h.audited o hold
      exact ⟨a, AuditGrows.mem (.inr hA) ha, hfields⟩
    · exact haudited

/-- Every step keeps everything named. -/
theorem Intake.step (settings : Settings) (s : Platform) (e : Event) (h : Intake settings s.db) :
    Intake settings (TaxStamp.step settings s e).db := by
  cases e with
  | submitOrder compliance draws actor command now key =>
    exact Tx.commit_induction (Intake settings) h fun order db' hok => h.submitted hok
  | _ =>
    refine h.keep ((step_change settings s _).keepsOrders ?_)
    intro compliance draws actor command now key he
    cases he

/-- In every reachable state the names that the next remittance needs are free. -/
theorem Intake.run (settings : Settings) (companies : Table companySchema) (tariffs : Table tariffSchema)
    (events : List Event) :
    Intake settings (Lib.run (TaxStamp.step settings) (.initial companies tariffs) events).db := by
  refine run_invariant (fun s : Platform => Intake settings s.db) (fun s e h => h.step settings s e) _ ?_ events
  exact ⟨fun _ h => absurd h List.not_mem_nil, fun _ h => absurd h List.not_mem_nil,
    fun _ h => absurd h List.not_mem_nil, fun _ h => absurd h List.not_mem_nil⟩

/-- The stamps of an order that has not been paid have not been asked for. -/
theorem Intake.issueKey_free (h : Intake settings db) {order : Order} (horder : order ∈ db.orders.rows)
    (hunpaid : order.status.isPaid = false) : ∀ m ∈ db.outboxMessages.rows, m.dedupeKey ≠ issueKey order.id := by
  intro m hm hkey
  have hcause := h.keys m hm
  rw [hkey] at hcause
  generalize hname : issueKey order.id = name at hcause
  cases hcause with
  | payment id => exact key_ne 7 (by decide) (by decide) (by decide) _ _ hname
  | issue o ho hpaid =>
    rw [order_eq_of_id db ho horder (issueKey_injective hname.symm), hunpaid] at hpaid
    cases hpaid
  | review r hr => exact key_ne 1 (by decide) (by decide) (by decide) _ _ hname
  | anchor id => exact key_ne 1 (by decide) (by decide) (by decide) _ _ hname
  | transfer id => exact key_ne 1 (by decide) (by decide) (by decide) _ _ hname

/-- A remittance that has not been seen has not been sent to review. -/
theorem Intake.reviewKey_free (h : Intake settings db) {externalReference : String}
    (hnew : ∀ r ∈ db.paymentReceipts.rows, r.externalReference ≠ externalReference) :
    ∀ m ∈ db.outboxMessages.rows, m.dedupeKey ≠ "payment.mismatch:" ++ externalReference := by
  intro m hm hkey
  have hcause := h.keys m hm
  rw [hkey] at hcause
  generalize hname : "payment.mismatch:" ++ externalReference = name at hcause
  cases hcause with
  | payment id => exact key_ne 1 (by decide) (by decide) (by decide) _ _ hname
  | issue o ho hpaid => exact key_ne 1 (by decide) (by decide) (by decide) _ _ hname
  | review r hr => exact hnew r hr ((String.append_right_inj _).mp hname).symm
  | anchor id => exact key_ne 1 (by decide) (by decide) (by decide) _ _ hname
  | transfer id => exact key_ne 1 (by decide) (by decide) (by decide) _ _ hname

/-- A remittance that has not been seen has no journal. -/
theorem Intake.journal_free (h : Intake settings db) {externalReference : String}
    (hnew : ∀ r ∈ db.paymentReceipts.rows, r.externalReference ≠ externalReference) :
    ∀ j ∈ db.journals.rows,
      j.reference ≠ "settlement:" ++ externalReference ∧ j.reference ≠ "unapplied:" ++ externalReference := by
  intro j hj
  obtain ⟨r, hr, hname⟩ := h.journals j hj
  have hother : ∀ a b : String, "settlement:" ++ a ≠ "unapplied:" ++ b :=
    fun a b => key_ne 1 (by decide) (by decide) (by decide) a b
  rcases hname with hname | hname <;> rw [hname] <;> constructor <;> intro heq
  · exact hnew r hr ((String.append_right_inj _).mp heq)
  · exact hother _ _ heq
  · exact hother _ _ heq.symm
  · exact hnew r hr ((String.append_right_inj _).mp heq)

end TaxStamp
