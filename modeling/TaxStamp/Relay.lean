import TaxStamp.Handlers
import TaxStamp.Lib.Slots
import TaxStamp.System

/-!
# Relaying the outbox

Any number of workers run `relay_once` while the services go on. A worker claims a batch
under one lease and delivers its messages one after the other, each in a transaction of
its own; a delivery that raises is followed by a transaction that reads the message and
one statement later records the failure. Between any two of its statements a worker may be
delayed for any time or die, and a reading of the clock is part of the event that uses it.

Success and failure are recorded by message id alone, so an outcome can be recorded by a
worker whose lease has run out and been taken over by another.
-/

namespace TaxStamp

open Lib

/-- The settings of the relay, with the ranges that the configuration accepts. -/
structure RelaySettings extends Settings where
  outboxLeaseSeconds : ℤ
  outboxBatchSize : ℕ
  outboxMaxAttempts : ℤ
  lease_range : 5 ≤ outboxLeaseSeconds ∧ outboxLeaseSeconds ≤ 3600
  batch_range : 1 ≤ outboxBatchSize ∧ outboxBatchSize ≤ 1000
  attempts_range : 1 ≤ outboxMaxAttempts ∧ outboxMaxAttempts ≤ 50

/-- Where a worker stands in `relay_once`: with the claimed messages that are still to be delivered, or in
the handling of a failed delivery. A worker between two runs has nothing to deliver. -/
inductive RelayPhase
  | relaying (claimed : List OutboxMessage)
  | failing (message : OutboxMessage) (error : String) (rest : List OutboxMessage)
  | recording (message : OutboxMessage) (attempts : ℤ) (error : String) (rest : List OutboxMessage)

/-- A worker of the relay. -/
structure RelayWorker where
  workerId : String
  phase : RelayPhase

/-- A claim of a message that its worker has not answered with an outcome yet. -/
structure Lease where
  worker : ℕ
  messageId : Uuid
  since : Time
  deriving DecidableEq

/-- The platform, the workers and the claims they have not answered. -/
structure Relay where
  platform : Platform
  workers : List RelayWorker
  leases : List Lease

/-- No worker has started. -/
def Relay.initial (companies : Table companySchema) (tariffs : Table tariffSchema) : Relay :=
  ⟨.initial companies tariffs, [], []⟩

/-- The outbox of the relay. -/
def Relay.outbox (s : Relay) : List OutboxMessage := s.platform.db.outboxMessages.rows

/-- The next statement of a worker. The `error` of a delivery is the text of what it raises. -/
inductive RelayWorkerEvent
  | claim (now : Time) (locked : List Uuid)
  | deliver (delivery : RelayDelivery) (error : String)
  | raise (error : String)
  | readFailed
  | recordFailed (now : Time)
  | die

/-- A transaction of a service, a new worker, or the next statement of a worker. -/
inductive RelayEvent
  | service (e : Event)
  | join (workerId : String)
  | worker (index : ℕ) (e : RelayWorkerEvent)

/-- What a statement of a worker amounts to. -/
inductive RelayAct
  | claimed (messages : List OutboxMessage) (now : Time) (db : Db)
  | delivered (message : OutboxMessage) (rest : List OutboxMessage) (db : Db)
  | failed (message : OutboxMessage) (retry : Time) (dead : Bool) (rest : List OutboxMessage) (db : Db)
  | moved (phase : RelayPhase)

/-- The delivery transaction of a claimed message. -/
def deliver (settings : RelaySettings) (delivery : RelayDelivery) (message : OutboxMessage) : Session Unit := do
  let current ← fetch Tables.outboxMessages (fun m => m.id = message.id) .noResultFound
  handle settings.toSettings delivery message.payload current.eventType
  Tx.lift delivery.published
  markProcessed message.id (delivery.clock 1)

/-- The statements of `relay_once`. -/
def relayOnce (settings : RelaySettings) (db : Db) (w : RelayWorker) (e : RelayWorkerEvent) : RelayAct :=
  match w.phase, e with
  | .relaying [], .claim now locked =>
    match claimBatch w.workerId now settings.outboxLeaseSeconds settings.outboxBatchSize locked db with
    | .ok (messages, db') => .claimed messages now db'
    | .error _ => .moved (.relaying [])
  | .relaying (message :: rest), .deliver delivery error =>
    match deliver settings delivery message db with
    | .ok (_, db') => .delivered message rest db'
    | .error _ => .moved (.failing message error rest)
  | .relaying (message :: rest), .raise error => .moved (.failing message error rest)
  | .failing message error rest, .readFailed =>
    match fetch Tables.outboxMessages (fun m => m.id = message.id) .noResultFound db with
    | .ok (current, _) => .moved (.recording message current.attempts error rest)
    | .error _ => .moved (.relaying [])
  | .recording message attempts error rest, .recordFailed now =>
    match markFailed message.id attempts error now settings.outboxMaxAttempts db with
    | .ok (dead, db') => .failed message (now + seconds (backoffSeconds (attempts + 1))) dead rest db'
    | .error _ => .moved (.relaying [])
  | _, .die => .moved (.relaying [])
  | phase, _ => .moved phase

/-- The message whose outcome a statement commits. -/
def RelayAct.outcome : RelayAct → Option Uuid
  | .delivered message _ _ | .failed message _ _ _ _ => some message.id
  | .claimed _ _ _ | .moved _ => none

/-- The database after a statement. -/
def RelayAct.db (db : Db) : RelayAct → Db
  | .claimed _ _ db' | .delivered _ _ db' | .failed _ _ _ _ db' => db'
  | .moved _ => db

/-- Where a worker stands after a statement. -/
def RelayAct.phase : RelayAct → RelayPhase
  | .claimed messages _ _ => .relaying messages
  | .delivered _ rest _ | .failed _ _ _ rest _ => .relaying rest
  | .moved phase => phase

/-- The unanswered claims after a statement. -/
def RelayAct.leases (index : ℕ) (leases : List Lease) : RelayAct → List Lease
  | .claimed messages now _ => leases ++ messages.map fun m => ⟨index, m.id, now⟩
  | .delivered message _ _ | .failed message _ _ _ _ =>
    leases.filter fun l => ¬(l.worker = index ∧ l.messageId = message.id)
  | .moved _ => leases

/-- A transaction that the relay itself runs. -/
def Event.relays : Event → Bool
  | .claimBatch .. | .markProcessed .. | .markFailed .. => true
  | _ => false

/-- The relay after an event. The relay's own transactions come from its workers only. -/
def relayStep (settings : RelaySettings) (s : Relay) : RelayEvent → Relay
  | .service e => if e.relays then s else { s with platform := step settings.toSettings s.platform e }
  | .join workerId => { s with workers := s.workers ++ [⟨workerId, .relaying []⟩] }
  | .worker index e =>
    match s.workers[index]? with
    | none => s
    | some w =>
      let act := relayOnce settings s.platform.db w e
      { platform := { s.platform with db := act.db s.platform.db }
        workers := s.workers.set index ⟨w.workerId, act.phase⟩
        leases := act.leases index s.leases }

/-- What the statement of a worker amounts to in a state. -/
def Relay.act (settings : RelaySettings) (s : Relay) : RelayEvent → Option (ℕ × RelayAct)
  | .worker index e => (s.workers[index]?).map fun w => (index, relayOnce settings s.platform.db w e)
  | .service _ | .join _ => none

/-- The claim that an event commits: its worker, its time and the messages it returns. -/
def Relay.claims (settings : RelaySettings) (s : Relay) (e : RelayEvent) : Option (ℕ × Time × List Uuid) :=
  match s.act settings e with
  | some (index, .claimed messages now _) => some (index, now, messages.map OutboxMessage.id)
  | _ => none

/-- The outcome that an event commits: its worker and the message. -/
def Relay.outcome (settings : RelaySettings) (s : Relay) (e : RelayEvent) : Option (ℕ × Uuid) :=
  (s.act settings e).bind fun (index, act) => act.outcome.map fun messageId => (index, messageId)

/-- A committed claim is a statement that claims. -/
theorem Relay.claims_some {settings : RelaySettings} {s : Relay} {e : RelayEvent} {index : ℕ} {now : Time}
    {ids : List Uuid} (h : s.claims settings e = some (index, now, ids)) :
    ∃ messages db, s.act settings e = some (index, .claimed messages now db) ∧
      ids = messages.map OutboxMessage.id := by
  unfold Relay.claims at h
  split at h
  · rename_i hact
    cases h
    exact ⟨_, _, hact, rfl⟩
  · cases h

/-- A committed outcome is a statement that commits one. -/
theorem Relay.outcome_some {settings : RelaySettings} {s : Relay} {e : RelayEvent} {index : ℕ} {messageId : Uuid} :
    s.outcome settings e = some (index, messageId) ↔
      ∃ act, s.act settings e = some (index, act) ∧ act.outcome = some messageId := by
  unfold Relay.outcome
  constructor
  · intro h
    obtain ⟨⟨i, act⟩, hact, hrest⟩ := Option.bind_eq_some_iff.mp h
    obtain ⟨id, houtcome, hpair⟩ := Option.map_eq_some_iff.mp hrest
    cases hpair
    exact ⟨act, hact, houtcome⟩
  · rintro ⟨act, hact, houtcome⟩
    simp [hact, houtcome]

/-- A worker commits its own outcomes. -/
theorem Relay.outcome_worker {settings : RelaySettings} {s : Relay} {i index : ℕ} {e : RelayWorkerEvent}
    {messageId : Uuid} (h : s.outcome settings (.worker i e) = some (index, messageId)) : i = index := by
  obtain ⟨act, hact, -⟩ := Relay.outcome_some.mp h
  obtain ⟨w, -, hpair⟩ := Option.map_eq_some_iff.mp hact
  exact congrArg Prod.fst hpair

/-- The messages a statement writes. -/
def RelayAct.touched : RelayAct → List Uuid
  | .claimed messages _ _ => messages.map OutboxMessage.id
  | .delivered message _ _ | .failed message _ _ _ _ => [message.id]
  | .moved _ => []

/-- What a statement does to one message of the outbox. -/
inductive Handled (settings : RelaySettings) (act : RelayAct) (m : OutboxMessage) : OutboxMessage → Prop
  | kept (huntouched : m.id ∉ act.touched) : Handled settings act m m
  | leased (messages : List OutboxMessage) (now : Time) (db : Db) (workerId : String)
      (hact : act = .claimed messages now db) (hdue : m.due now = true) :
      Handled settings act m
        { m with lockedBy := some workerId, lockedUntil := some (now + seconds settings.outboxLeaseSeconds) }
  | processed (message : OutboxMessage) (rest : List OutboxMessage) (db : Db) (now : Time)
      (hact : act = .delivered message rest db) (hid : m.id = message.id) :
      Handled settings act m (m.processed now)
  | failed (message : OutboxMessage) (rest : List OutboxMessage) (db : Db) (attempts : ℤ) (error : String)
      (now retry : Time) (dead : Bool) (hact : act = .failed message retry dead rest db) (hid : m.id = message.id) :
      Handled settings act m (m.failed attempts error now retry dead)

/-- No statement changes what identifies a message. -/
theorem Handled.id {settings : RelaySettings} {act : RelayAct} {m m' : OutboxMessage}
    (h : Handled settings act m m') : m'.id = m.id := by
  cases h <;> rfl

/-- A message is determined by its identifier. -/
theorem message_eq_of_id (db : Db) {m m' : OutboxMessage} (hm : m ∈ db.outboxMessages.rows)
    (hm' : m' ∈ db.outboxMessages.rows) (hid : m.id = m'.id) : m = m' :=
  db.outboxMessages.eq_of_clash hm hm' (by simp [outboxMessageSchema, hid])

/-- A handler leaves the outbox alone. -/
theorem HandlerEffect.outbox {settings : Settings} {delivery : RelayDelivery} {db db' : Db}
    (h : HandlerEffect settings delivery db db') : db'.outboxMessages = db.outboxMessages := by
  rcases h with rfl | ⟨record, event, haudit⟩
  · rfl
  · obtain ⟨A, -, rfl⟩ := recordAuditEvent_ok haudit
    rfl

/-- A committed delivery runs the handler and records the message as delivered. -/
theorem deliver_ok {settings : RelaySettings} {delivery : RelayDelivery} {message : OutboxMessage} {u : Unit}
    {db db' : Db} (h : deliver settings delivery message db = .ok (u, db')) :
    ∃ db₁, HandlerEffect settings.toSettings delivery db db₁ ∧
      markProcessed message.id (delivery.clock 1) db₁ = .ok (u, db') := by
  simp only [deliver, Tx.bind_ok, fetch_ok, Tx.lift_ok] at h
  obtain ⟨current, db₁, ⟨-, rfl⟩, v, db₂, hhandle, -, db₃, ⟨-, rfl⟩, hmark⟩ := h
  exact ⟨db₂, handle_ok hhandle, hmark⟩

/-- What a statement of a worker does to the outbox. -/
theorem relayOnce_outbox (settings : RelaySettings) (db : Db) (w : RelayWorker) (e : RelayWorkerEvent) :
    ∃ f, ((relayOnce settings db w e).db db).outboxMessages.rows = db.outboxMessages.rows.map f ∧
      ∀ m ∈ db.outboxMessages.rows, Handled settings (relayOnce settings db w e) m (f m) := by
  have hmoved : ∀ phase : RelayPhase, ∃ f, ((RelayAct.moved phase).db db).outboxMessages.rows =
      db.outboxMessages.rows.map f ∧ ∀ m ∈ db.outboxMessages.rows, Handled settings (.moved phase) m (f m) :=
    fun phase => ⟨fun m => m, (List.map_id' _).symm, fun m _ => .kept (List.not_mem_nil)⟩
  unfold relayOnce
  split
  · split
    · rename_i now locked _ _ messages db' hclaim
      obtain ⟨candidates, M, hdue, hM, rfl, rfl⟩ := claimBatch_ok hclaim
      refine ⟨_, hM, fun m hm => ?_⟩
      dsimp only
      split
      · rename_i hcandidate
        obtain ⟨m', hm', hid, hdue⟩ := hdue m.id hcandidate
        obtain rfl := message_eq_of_id db hm hm' hid.symm
        exact .leased _ now _ w.workerId rfl hdue
      · rename_i hother
        refine .kept fun htouched => ?_
        obtain ⟨m', hm', hid⟩ := List.mem_map.mp htouched
        have hcandidate := (List.mem_filter.mp hm').2
        rw [hid] at hcandidate
        exact hother (of_decide_eq_true hcandidate)
    · exact hmoved _
  · split
    · rename_i message rest delivery error _ _ _ db' hdeliver
      obtain ⟨db₁, heffect, hmark⟩ := deliver_ok hdeliver
      obtain ⟨M, hM, rfl⟩ := markProcessed_ok hmark
      rw [heffect.outbox] at hM
      refine ⟨_, hM, fun m hm => ?_⟩
      dsimp only
      split
      · rename_i hid
        exact .processed message rest _ (delivery.clock 1) rfl hid
      · rename_i hother
        exact .kept (by simpa [RelayAct.touched] using hother)
    · exact hmoved _
  · exact hmoved _
  · split
    · exact hmoved _
    · exact hmoved _
  · split
    · rename_i message attempts error rest now _ _ dead db' hfailed
      obtain ⟨M, hM, -, rfl⟩ := markFailed_ok hfailed
      refine ⟨_, hM, fun m hm => ?_⟩
      dsimp only
      split
      · rename_i hid
        exact .failed message rest _ _ error now _ dead rfl hid
      · rename_i hother
        exact .kept (by simpa [RelayAct.touched] using hother)
    · exact hmoved _
  · exact hmoved _
  · exact hmoved _

/-- A transaction only announces messages. -/
def Db.Announces (db db' : Db) : Prop := OutboxGrows db.outboxMessages.rows db'.outboxMessages.rows

/-- What a transaction can ask for: its kind and its dedupe key, with the row that it is about. -/
inductive Announcement (db' : Db) : Event → String → String → Prop
  | payment (e : Event) (order : Order) :
      Announcement db' e "order.awaiting_payment" ("order.awaiting_payment:" ++ order.id.str)
  | review (e : Event) (receipt : PaymentReceipt) (hreceipt : receipt ∈ db'.paymentReceipts.rows) :
      Announcement db' e "payment.mismatch_requires_review" ("payment.mismatch:" ++ receipt.externalReference)
  | issue (e : Event) (order : Order) (horder : order ∈ db'.orders.rows) (hpaid : order.status = .paid) :
      Announcement db' e "order.issue_stamps" ("order.issue_stamps:" ++ order.id.str)
  | anchor (draws : Draws) (orderId : Uuid) (chunkSize : ℤ) (now : Time) (batchId : Uuid) :
      Announcement db' (.issueChunk draws orderId chunkSize now) "batch.anchor_requested" ("batch.anchor:" ++ batchId.str)
  | transfer (e : Event) (intent : TigerBeetleLedgerIntent) (hintent : intent ∈ db'.tigerbeetleLedgerIntents.rows) :
      Announcement db' e "tigerbeetle.transfer_requested" ("tigerbeetle-transfer:" ++ intent.tigerbeetleTransferId)

/-- What a transaction can do to the outbox: nothing, record one request, or rewrite messages as a worker does. -/
inductive OutboxStep (db db' : Db) (e : Event) : Prop
  | quiet (hM : db'.outboxMessages = db.outboxMessages)
  | requested (messageId : Uuid) (eventType dedupeKey : String) (payload : JsonObject)
      (hannouncement : Announcement db' e eventType dedupeKey)
      (hannounced : Announced messageId eventType dedupeKey payload db.outboxMessages.rows db'.outboxMessages.rows)
  | rewritten (hrelays : e.relays = true) (f : OutboxMessage → OutboxMessage)
      (hM : db'.outboxMessages.rows = db.outboxMessages.rows.map f) (hkey : ∀ m, (f m).dedupeKey = m.dedupeKey)

/-- What is committed does one of the three. -/
theorem Committed.outboxStep {settings : Settings} {s : Platform} {e : Event} {db' : Db}
    (h : Committed settings s e db') : OutboxStep s.db db' e := by
  cases h with
  | unchanged => exact .quiet rfl
  | submitOrder h =>
    obtain ⟨draft, compliant, O, T, A, -, -, -, -, -, -, rfl⟩ := submitOrder_ok h
    exact .quiet rfl
  | decideApproval h =>
    obtain ⟨order, P, db₁, A, -, -, -, -, -, -, -, heffect, -, rfl⟩ := decideApproval_ok h
    cases heffect with
    | rejected => exact .quiet rfl
    | recorded => exact .quiet rfl
    | opened O T I M hdecision hfull hO hT hI hM hannounced =>
      obtain ⟨payload, hannounced⟩ := hannounced
      exact .requested _ _ _ payload (.payment _ order) hannounced
  | cancelOrder h =>
    obtain ⟨order, O, T, A, -, -, -, -, -, -, -, rfl⟩ := cancelOrder_ok h
    exact .quiet rfl
  | @ingestRemittance draws advice now result db' h =>
    cases ingestRemittance_ok h with
    | replayed => exact .quiet rfl
    | unknown => exact .quiet rfl
    | mismatched intent payloadHash R J E M A hintent hstatus hR hJ hE hsupported hM hannounced =>
      obtain ⟨payload, hannounced⟩ := hannounced
      refine .requested _ _ _ payload
        (.review _ (newReceipt (draws.uuid 0) (some intent) advice payloadHash now) ?_) hannounced
      change _ ∈ R.rows
      rw [hR]
      exact List.mem_append_right _ (List.mem_singleton.mpr rfl)
    | settled intent order payloadHash R O T I J E M A hintent hstatus horder hid hawaiting hR hO hT hI hJ hE
        hsupported hM hannounced =>
      refine .requested _ _ _ _ (.issue _ (order.withStatus .paid now) ?_ rfl) hannounced
      change _ ∈ O.rows
      rw [hO]
      exact mem_moveOrder.mpr ⟨order, horder, .inl ⟨rfl, rfl⟩⟩
  | issueChunk h =>
    obtain ⟨order, batch, base, added, complete, f, O, T, B, C, S, M, A, -, -, -, -, -, -, -, -, -, -, -, -, -, -, -, -,
      -, hanchor, -, -⟩ := issueOrderChunk_ok h
    rcases hanchor with ⟨-, payload, hannounced⟩ | ⟨-, hrows⟩
    · exact .requested _ _ _ payload (.anchor _ _ _ _ batch.id) hannounced
    · exact .quiet (Table.ext_rows hrows)
  | recordInspection h =>
    cases recordInspection_ok h
    exact .quiet rfl
  | activateStamps ha h =>
    cases activateStamps_ok h
    exact .quiet rfl
  | voidStamps h =>
    cases voidStamps_ok h
    exact .quiet rfl
  | expireDueStamps h =>
    cases expireDueStamps_ok h
    exact .quiet rfl
  | createLedgerIntent h =>
    cases createLedgerIntent_ok h with
    | reused => exact .quiet rfl
    | created intent payment L M A hpayment hid hsettled hamount hcurrency hready hL hM hannounced =>
      obtain ⟨payload, hannounced⟩ := hannounced
      refine .requested _ _ _ payload (.transfer _ intent ?_) hannounced
      change intent ∈ L.rows
      rw [hL]
      exact List.mem_append_right _ (List.mem_singleton.mpr rfl)
  | ledgerWork work => exact .quiet (work.outbox settings s.db)
  | claimBatch h =>
    obtain ⟨candidates, M, -, hM, -, rfl⟩ := claimBatch_ok h
    refine .rewritten rfl _ hM fun m => ?_
    split <;> rfl
  | markProcessed h =>
    obtain ⟨M, hM, rfl⟩ := markProcessed_ok h
    refine .rewritten rfl _ hM fun m => ?_
    split <;> rfl
  | markFailed h =>
    obtain ⟨M, hM, -, rfl⟩ := markFailed_ok h
    refine .rewritten rfl _ hM fun m => ?_
    split <;> rfl
  | recordAudit h =>
    obtain ⟨A, -, rfl⟩ := recordAuditEvent_ok h
    exact .quiet rfl

/-- Every transaction does one of the three. -/
theorem step_outbox (settings : Settings) (s : Platform) (e : Event) : OutboxStep s.db (step settings s e).db e :=
  (step_committed settings s e).outboxStep

/-- The services let the outbox grow. -/
theorem step_outboxGrows (settings : Settings) (s : Platform) (e : Event) (hother : e.relays = false) :
    s.db.Announces (step settings s e).db := by
  cases step_outbox settings s e with
  | quiet hM =>
    change OutboxGrows _ (step settings s e).db.outboxMessages.rows
    rw [hM]
    exact .refl _
  | requested messageId eventType dedupeKey payload hannouncement hannounced => exact hannounced.grows
  | rewritten hrelays =>
    rw [hother] at hrelays
    cases hrelays

/-- What an event does to the outbox: without a statement of a worker it grows, and a statement handles its
messages. -/
theorem relayStep_outbox (settings : RelaySettings) (s : Relay) (e : RelayEvent) :
    (s.act settings e = none ∧ OutboxGrows s.outbox (relayStep settings s e).outbox) ∨
      ∃ index act f, s.act settings e = some (index, act) ∧ (relayStep settings s e).outbox = s.outbox.map f ∧
        ∀ m ∈ s.outbox, Handled settings act m (f m) := by
  cases e with
  | service e =>
    refine .inl ⟨rfl, ?_⟩
    cases hrelays : e.relays with
    | true =>
      simp only [relayStep, hrelays, if_true]
      exact .refl _
    | false =>
      simp only [relayStep, hrelays, Bool.false_eq_true, if_false]
      exact step_outboxGrows settings.toSettings s.platform e hrelays
  | join workerId => exact .inl ⟨rfl, .refl _⟩
  | worker index e =>
    cases hw : s.workers[index]? with
    | none =>
      refine .inl ⟨by simp [Relay.act, hw], ?_⟩
      simp only [relayStep, hw]
      exact .refl _
    | some w =>
      obtain ⟨f, hrows, hhandled⟩ := relayOnce_outbox settings s.platform.db w e
      refine .inr ⟨index, relayOnce settings s.platform.db w e, f, by simp [Relay.act, hw], ?_, hhandled⟩
      simp only [relayStep, hw, Relay.outbox]
      exact hrows

/-- The unanswered claims after an event. -/
theorem relayStep_leases (settings : RelaySettings) (s : Relay) (e : RelayEvent) :
    (relayStep settings s e).leases =
      match s.act settings e with
      | some (index, act) => act.leases index s.leases
      | none => s.leases := by
  cases e with
  | service e =>
    simp only [relayStep, Relay.act]
    split <;> rfl
  | join workerId => rfl
  | worker index e => cases hw : s.workers[index]? <;> simp [relayStep, Relay.act, hw]

/-- A message stays a message of the outbox under its identifier. -/
theorem relayStep_kept (settings : RelaySettings) (s : Relay) (e : RelayEvent) {m : OutboxMessage}
    (hm : m ∈ s.outbox) : ∃ m' ∈ (relayStep settings s e).outbox, m'.id = m.id := by
  rcases relayStep_outbox settings s e with ⟨-, new, hrows, -⟩ | ⟨index, act, f, -, hrows, hhandled⟩
  · rw [hrows]
    exact ⟨m, List.mem_append_left _ hm, rfl⟩
  · rw [hrows]
    exact ⟨f m, List.mem_map_of_mem hm, (hhandled m hm).id⟩

/-- A statement that claims messages is a claim. -/
theorem relayOnce_claimed {settings : RelaySettings} {db db' : Db} {w : RelayWorker} {e : RelayWorkerEvent}
    {messages : List OutboxMessage} {now : Time} (h : relayOnce settings db w e = .claimed messages now db') :
    ∃ locked, claimBatch w.workerId now settings.outboxLeaseSeconds settings.outboxBatchSize locked db =
      .ok (messages, db') := by
  unfold relayOnce at h
  split at h
  · split at h
    · rename_i locked _ _ _ _ hclaim
      cases h
      exact ⟨locked, hclaim⟩
    · cases h
  · split at h <;> cases h
  · cases h
  · split at h <;> cases h
  · split at h <;> cases h
  · cases h
  · cases h

/-- A claim returns messages that were due, and they are leased afterwards. -/
theorem Relay.claimed_due {settings : RelaySettings} {s : Relay} {e : RelayEvent} {index : ℕ}
    {messages : List OutboxMessage} {now : Time} {db' : Db}
    (h : s.act settings e = some (index, .claimed messages now db')) {m : OutboxMessage} (hm : m ∈ messages) :
    (∃ old ∈ s.outbox, old.id = m.id ∧ old.due now = true) ∧ m ∈ (relayStep settings s e).outbox ∧
      m.lockedUntil = some (now + seconds settings.outboxLeaseSeconds) := by
  cases e with
  | service e => cases h
  | join workerId => cases h
  | worker i e =>
    cases hw : s.workers[i]? with
    | none => simp [Relay.act, hw] at h
    | some w =>
      simp only [Relay.act, hw, Option.map_some, Option.some.injEq, Prod.mk.injEq] at h
      obtain ⟨rfl, hact⟩ := h
      have houtbox : (relayStep settings s (.worker i e)).outbox = db'.outboxMessages.rows := by
        simp only [relayStep, hw, Relay.outbox, hact]
        rfl
      obtain ⟨locked, hclaim⟩ := relayOnce_claimed hact
      obtain ⟨candidates, M, hdue, hM, rfl, rfl⟩ := claimBatch_ok hclaim
      obtain ⟨hrow, hcandidate⟩ := List.mem_filter.mp hm
      have hcandidate : m.id ∈ candidates := of_decide_eq_true hcandidate
      refine ⟨hdue m.id hcandidate, ?_, ?_⟩
      · rw [houtbox]
        exact hrow
      · rw [hM] at hrow
        obtain ⟨old, -, rfl⟩ := List.mem_map.mp hrow
        split at hcandidate
        · rename_i hleased
          rw [if_pos hleased]
        · rename_i hfree
          exact absurd hcandidate hfree

/-- A committed statement of a worker is made of transactions of the platform. -/
theorem relayOnce_platform (settings : RelaySettings) (P : Platform) (w : RelayWorker) (e : RelayWorkerEvent) :
    ∃ events, { P with db := (relayOnce settings P.db w e).db P.db } = run (step settings.toSettings) P events := by
  unfold relayOnce
  split
  · rename_i now locked _
    split
    · rename_i messages db' hclaim
      refine ⟨[.claimBatch w.workerId now settings.outboxLeaseSeconds settings.outboxBatchSize locked], ?_⟩
      simp only [run, List.foldl, step, Tx.commit, hclaim]
      rfl
    · exact ⟨[], rfl⟩
  · rename_i message rest delivery error _
    split
    · rename_i db' hdeliver
      obtain ⟨db₁, heffect, hmark⟩ := deliver_ok hdeliver
      rcases heffect with rfl | ⟨record, event, haudit⟩
      · refine ⟨[.markProcessed message.id (delivery.clock 1)], ?_⟩
        simp only [run, List.foldl, step, Tx.commit, hmark]
        rfl
      · refine ⟨[.recordAudit delivery.draws (delivery.draws.uuid 0) systemWorker record (delivery.clock 0),
          .markProcessed message.id (delivery.clock 1)], ?_⟩
        simp only [run, List.foldl, step, Tx.commit, haudit, hmark]
        rfl
    · exact ⟨[], rfl⟩
  · exact ⟨[], rfl⟩
  · split <;> exact ⟨[], rfl⟩
  · rename_i message attempts error rest now _
    split
    · rename_i dead db' hfailed
      refine ⟨[.markFailed message.id attempts error now settings.outboxMaxAttempts], ?_⟩
      simp only [run, List.foldl, step, Tx.commit, hfailed]
      rfl
    · exact ⟨[], rfl⟩
  · exact ⟨[], rfl⟩
  · exact ⟨[], rfl⟩

/-- The platform under the relay runs like the platform: what holds after every run of the platform holds
after every run of the relay. -/
theorem relay_platform (settings : RelaySettings) (companies : Table companySchema) (tariffs : Table tariffSchema)
    (events : List RelayEvent) :
    ∃ events', (run (relayStep settings) (.initial companies tariffs) events).platform =
      run (step settings.toSettings) (.initial companies tariffs) events' := by
  refine run_simulates Relay.platform (fun s e => ?_) (Relay.initial companies tariffs) events
  cases e with
  | service e =>
    unfold relayStep
    dsimp only
    split
    · exact ⟨[], rfl⟩
    · exact ⟨[e], rfl⟩
  | join workerId => exact ⟨[], rfl⟩
  | worker index e =>
    unfold relayStep
    dsimp only
    split
    · exact ⟨[], rfl⟩
    · exact relayOnce_platform settings s.platform _ e

end TaxStamp
