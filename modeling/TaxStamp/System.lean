import TaxStamp.Issuance
import TaxStamp.Lib.Run
import TaxStamp.Payments
import TaxStamp.Stamps
import TaxStamp.TigerBeetleLedger

/-!
# The platform as a state machine

The services run as database transactions that serialise on the rows they lock and on the
unique keys they write, so an interleaving is a list of committed transactions. A
transaction that refuses, is rolled back or dies leaves the database as it was.

The one statement whose result is used after other transactions may have committed is the
activation's read of the batch statuses: `SELECT status` takes no lock, and a concurrent
inspection of the batch locks the batch and not the activated stamps. An activation is
therefore two events, the read and the commit, with the statuses it has read kept in
between.
-/

namespace TaxStamp

open Lib

/-- The serials of an activation in flight with the batch statuses it has read. -/
structure Activation where
  serials : List String
  statuses : BatchStatuses

/-- The database and the activations in flight. -/
structure Platform where
  db : Db
  activations : List Activation

/-- A platform with reference data only. -/
def Platform.initial (companies : Table companySchema) (tariffs : Table tariffSchema) : Platform :=
  ⟨Db.initial companies tariffs, []⟩

/-- The transactions of the services. The relay's and the handlers' own transactions touch the
outbox and the audit trail only; they stand here with arbitrary arguments. -/
inductive Event
  | submitOrder (compliance : ComplianceService) (draws : Draws) (actor : Actor)
      (command : SubmitOrderCommand) (now : Time) (idempotencyKey : Option String)
  | decideApproval (draws : Draws) (actor : Actor) (command : ApprovalCommand) (now : Time)
      (idempotencyKey : Option String)
  | cancelOrder (draws : Draws) (actor : Actor) (orderId : Uuid) (reason : String) (now : Time)
  | ingestRemittance (draws : Draws) (advice : RemittanceAdvice) (now : Time)
  | issueChunk (draws : Draws) (orderId : Uuid) (chunkSize : ℤ) (now : Time)
  | recordInspection (draws : Draws) (actor : Actor) (command : InspectionCommand) (now : Time)
  | readStatuses (serials : List String)
  | activateStamps (index : ℕ) (draws : Draws) (actor : Actor) (now : Time) (idempotencyKey : Option String)
  | voidStamps (draws : Draws) (actor : Actor) (serials : List String) (reason : String) (now : Time)
  | expireDueStamps (draws : Draws) (now : Time) (limit : ℕ) (locked : List Uuid)
  | createLedgerIntent (draws : Draws) (request : LedgerIntentRequest) (now : Time) (actor : AuditActor)
  | ledgerWork (work : LedgerWork)
  | claimBatch (workerId : String) (now : Time) (leaseSeconds : ℤ) (batchSize : ℕ) (locked : List Uuid)
  | markProcessed (messageId : Uuid) (now : Time)
  | markFailed (messageId : Uuid) (attemptsRead : ℤ) (error : String) (now : Time) (maxAttempts : ℤ)
  | recordAudit (draws : Draws) (eventId : Uuid) (actor : AuditActor) (record : AuditRecord) (now : Time)

/-- The platform after a transaction. -/
def step (settings : Settings) (s : Platform) : Event → Platform
  | .submitOrder compliance draws actor command now key =>
    { s with db := (submitOrder settings compliance draws actor command now key).commit s.db }
  | .decideApproval draws actor command now key =>
    { s with db := (decideApproval settings draws actor command now key).commit s.db }
  | .cancelOrder draws actor orderId reason now =>
    { s with db := (cancelOrder settings draws actor orderId reason now).commit s.db }
  | .ingestRemittance draws advice now =>
    { s with db := (ingestRemittance settings draws advice now).commit s.db }
  | .issueChunk draws orderId chunkSize now =>
    { s with db := (issueOrderChunk settings draws orderId chunkSize now).commit s.db }
  | .recordInspection draws actor command now =>
    { s with db := (recordInspection settings draws actor command now).commit s.db }
  | .readStatuses serials =>
    { s with activations := s.activations ++ [⟨serials, readBatchStatuses serials s.db⟩] }
  | .activateStamps index draws actor now key =>
    match s.activations[index]? with
    | some a =>
      { db := (activateStamps settings draws actor a.serials a.statuses now key).commit s.db
        activations := s.activations.eraseIdx index }
    | none => s
  | .voidStamps draws actor serials reason now =>
    { s with db := (voidStamps settings draws actor serials reason now).commit s.db }
  | .expireDueStamps draws now limit locked =>
    { s with db := (expireDueStamps settings draws now limit locked).commit s.db }
  | .createLedgerIntent draws request now actor =>
    { s with db := (createLedgerIntent settings draws request now actor).commit s.db }
  | .ledgerWork work => { s with db := work.commit settings s.db }
  | .claimBatch workerId now leaseSeconds batchSize locked =>
    { s with db := (claimBatch workerId now leaseSeconds batchSize locked).commit s.db }
  | .markProcessed messageId now => { s with db := (markProcessed messageId now).commit s.db }
  | .markFailed messageId attemptsRead error now maxAttempts =>
    { s with db := (markFailed messageId attemptsRead error now maxAttempts).commit s.db }
  | .recordAudit draws eventId actor record now =>
    { s with db := (recordAuditEvent settings draws eventId actor record now).commit s.db }

/-- Everything a transaction can do to the database, by the kind of its event. -/
inductive Change (settings : Settings) (s : Platform) : Event → Db → Prop
  | sameCore (e : Event) (db' : Db) (hsame : SameCore s.db db') : Change settings s e db'
  | submitted (compliance : ComplianceService) (draws : Draws) (actor : Actor) (command : SubmitOrderCommand)
      (now : Time) (key : Option String) (draft : Order) (compliant : Bool) (O : Table orderSchema)
      (T : Table orderTransitionSchema) (A : Table auditEventSchema)
      (hdraft : DraftOf compliance actor command draft compliant)
      (hfresh : ∀ o ∈ s.db.orders.rows, o.id ≠ draft.id)
      (hO : O.rows = s.db.orders.rows ++ [draft.withStatus (submissionStatus compliant) now])
      (hT : T.rows = s.db.orderTransitions.rows ++ submissionHistory draft.id compliant actor now)
      (hA : Audited settings s.db.auditEvents.rows A.rows) :
      Change settings s (.submitOrder compliance draws actor command now key)
        (Tables.auditEvents.set A (Tables.orderTransitions.set T (Tables.orders.set O s.db)))
  | decided (draws : Draws) (actor : Actor) (command : ApprovalCommand) (now : Time) (key : Option String)
      (order : Order) (P : Table approvalSchema) (db₁ : Db) (A : Table auditEventSchema)
      (horder : order ∈ s.db.orders.rows) (hid : order.id = command.orderId)
      (hstatus : order.status = .awaitingApproval) (hrole : actor.role = levelRole command.level)
      (hsubmitter : order.submittedBy ≠ actor.principalId)
      (hfirst : ∀ a ∈ s.db.approvals.rows, a.orderId = order.id →
        a.level ≠ command.level ∧ a.actorPrincipalId ≠ actor.principalId)
      (hP : P.rows = s.db.approvals.rows ++
        [⟨order.id, command.level, command.decision, actor.principalId, command.reason, now⟩])
      (heffect : DecisionEffect draws order actor command now (Tables.approvals.set P s.db) db₁)
      (hA : Audited settings s.db.auditEvents.rows A.rows) :
      Change settings s (.decideApproval draws actor command now key) (Tables.auditEvents.set A db₁)
  | cancelled (draws : Draws) (actor : Actor) (orderId : Uuid) (reason : String) (now : Time) (order : Order)
      (O : Table orderSchema) (T : Table orderTransitionSchema) (A : Table auditEventSchema)
      (horder : order ∈ s.db.orders.rows) (hid : order.id = orderId) (hmay : actor.mayCancel order)
      (hlegal : .cancelled ∈ orderTransitions order.status)
      (hO : O.rows = moveOrder order.id .cancelled now s.db.orders.rows)
      (hT : T.rows = s.db.orderTransitions.rows ++
        [⟨order.id, some order.status, .cancelled, some actor.principalId, reason, now⟩])
      (hA : Audited settings s.db.auditEvents.rows A.rows) :
      Change settings s (.cancelOrder draws actor orderId reason now)
        (Tables.auditEvents.set A (Tables.orderTransitions.set T (Tables.orders.set O s.db)))
  | ingested (draws : Draws) (advice : RemittanceAdvice) (now : Time) (db' : Db)
      (heffect : IngestEffect settings draws advice now s.db db') :
      Change settings s (.ingestRemittance draws advice now) db'
  | issued (draws : Draws) (orderId : Uuid) (chunkSize : ℤ) (now : Time) (db' : Db)
      (heffect : IssueEffect settings draws orderId chunkSize now s.db db') :
      Change settings s (.issueChunk draws orderId chunkSize now) db'
  | inspected (draws : Draws) (actor : Actor) (command : InspectionCommand) (now : Time) (db' : Db)
      (heffect : InspectEffect settings now s.db db') :
      Change settings s (.recordInspection draws actor command now) db'
  | activated (index : ℕ) (draws : Draws) (actor : Actor) (now : Time) (key : Option String) (a : Activation)
      (db' : Db) (ha : s.activations[index]? = some a)
      (heffect : StampEffect settings (fun stamp => stamp.serial ∈ distinct a.serials ∧ stamp.status = .issued ∧
        a.statuses.lookup stamp.batchId ≠ some .inspectionFailed) s.db db') :
      Change settings s (.activateStamps index draws actor now key) db'
  | retired (e : Event) (db' : Db) (heffect : StampEffect settings (fun _ => False) s.db db') : Change settings s e db'

/-- A rolled back transaction changes nothing. -/
theorem Change.refl (settings : Settings) (s : Platform) (e : Event) : Change settings s e s.db := .sameCore e s.db (.refl s.db)

/-- What an event leaves in the database: what was there, or the result of its call when that succeeds. -/
inductive Committed (settings : Settings) (s : Platform) : Event → Db → Prop
  | unchanged (e : Event) : Committed settings s e s.db
  | submitOrder {compliance draws actor command now key order db'}
      (h : submitOrder settings compliance draws actor command now key s.db = .ok (order, db')) :
      Committed settings s (.submitOrder compliance draws actor command now key) db'
  | decideApproval {draws actor command now key order db'}
      (h : decideApproval settings draws actor command now key s.db = .ok (order, db')) :
      Committed settings s (.decideApproval draws actor command now key) db'
  | cancelOrder {draws actor orderId reason now order db'}
      (h : cancelOrder settings draws actor orderId reason now s.db = .ok (order, db')) :
      Committed settings s (.cancelOrder draws actor orderId reason now) db'
  | ingestRemittance {draws advice now result db'}
      (h : ingestRemittance settings draws advice now s.db = .ok (result, db')) :
      Committed settings s (.ingestRemittance draws advice now) db'
  | issueChunk {draws orderId chunkSize now progress db'}
      (h : issueOrderChunk settings draws orderId chunkSize now s.db = .ok (progress, db')) :
      Committed settings s (.issueChunk draws orderId chunkSize now) db'
  | recordInspection {draws actor command now result db'}
      (h : recordInspection settings draws actor command now s.db = .ok (result, db')) :
      Committed settings s (.recordInspection draws actor command now) db'
  | activateStamps {index draws actor now key a result db'} (ha : s.activations[index]? = some a)
      (h : activateStamps settings draws actor a.serials a.statuses now key s.db = .ok (result, db')) :
      Committed settings s (.activateStamps index draws actor now key) db'
  | voidStamps {draws actor serials reason now result db'}
      (h : voidStamps settings draws actor serials reason now s.db = .ok (result, db')) :
      Committed settings s (.voidStamps draws actor serials reason now) db'
  | expireDueStamps {draws now limit locked expired db'}
      (h : expireDueStamps settings draws now limit locked s.db = .ok (expired, db')) :
      Committed settings s (.expireDueStamps draws now limit locked) db'
  | createLedgerIntent {draws request now actor intent db'}
      (h : createLedgerIntent settings draws request now actor s.db = .ok (intent, db')) :
      Committed settings s (.createLedgerIntent draws request now actor) db'
  | ledgerWork (work : LedgerWork) : Committed settings s (.ledgerWork work) (work.commit settings s.db)
  | claimBatch {workerId now leaseSeconds batchSize locked claimed db'}
      (h : claimBatch workerId now leaseSeconds batchSize locked s.db = .ok (claimed, db')) :
      Committed settings s (.claimBatch workerId now leaseSeconds batchSize locked) db'
  | markProcessed {messageId now u db'} (h : markProcessed messageId now s.db = .ok (u, db')) :
      Committed settings s (.markProcessed messageId now) db'
  | markFailed {messageId attemptsRead error now maxAttempts dead db'}
      (h : markFailed messageId attemptsRead error now maxAttempts s.db = .ok (dead, db')) :
      Committed settings s (.markFailed messageId attemptsRead error now maxAttempts) db'
  | recordAudit {draws eventId actor record now event db'}
      (h : recordAuditEvent settings draws eventId actor record now s.db = .ok (event, db')) :
      Committed settings s (.recordAudit draws eventId actor record now) db'

/-- Every step commits one of these. -/
theorem step_committed (settings : Settings) (s : Platform) (e : Event) :
    Committed settings s e (step settings s e).db := by
  have hcommit : ∀ {α : Type} (x : Session α), (∀ a db', x s.db = .ok (a, db') → Committed settings s e db') →
      Committed settings s e (x.commit s.db) := fun x hx =>
    Tx.commit_induction (Committed settings s e) (.unchanged e) hx
  cases e with
  | submitOrder => exact hcommit _ fun _ _ h => .submitOrder h
  | decideApproval => exact hcommit _ fun _ _ h => .decideApproval h
  | cancelOrder => exact hcommit _ fun _ _ h => .cancelOrder h
  | ingestRemittance => exact hcommit _ fun _ _ h => .ingestRemittance h
  | issueChunk => exact hcommit _ fun _ _ h => .issueChunk h
  | recordInspection => exact hcommit _ fun _ _ h => .recordInspection h
  | readStatuses serials => exact .unchanged _
  | activateStamps index draws actor now key =>
    cases ha : s.activations[index]? with
    | none =>
      simp only [step, ha]
      exact .unchanged _
    | some a =>
      simp only [step, ha]
      exact hcommit _ fun _ _ h => .activateStamps ha h
  | voidStamps => exact hcommit _ fun _ _ h => .voidStamps h
  | expireDueStamps => exact hcommit _ fun _ _ h => .expireDueStamps h
  | createLedgerIntent => exact hcommit _ fun _ _ h => .createLedgerIntent h
  | ledgerWork work => exact .ledgerWork work
  | claimBatch => exact hcommit _ fun _ _ h => .claimBatch h
  | markProcessed => exact hcommit _ fun _ _ h => .markProcessed h
  | markFailed => exact hcommit _ fun _ _ h => .markFailed h
  | recordAudit => exact hcommit _ fun _ _ h => .recordAudit h

/-- What is committed is one of these changes. -/
theorem Committed.change {settings : Settings} {s : Platform} {e : Event} {db' : Db} (h : Committed settings s e db') :
    Change settings s e db' := by
  cases h with
  | unchanged => exact .refl settings s e
  | submitOrder h =>
    obtain ⟨draft, compliant, O, T, A, hdraft, rfl, hfresh, hO, hT, hA, rfl⟩ := submitOrder_ok h
    exact .submitted _ _ _ _ _ _ draft compliant O T A hdraft hfresh hO hT hA
  | decideApproval h =>
    obtain ⟨order, P, db₁, A, horder, hid, hstatus, hrole, hsubmitter, hfirst, hP, heffect, hA, rfl⟩ :=
      decideApproval_ok h
    exact .decided _ _ _ _ _ order P db₁ A horder hid hstatus hrole hsubmitter hfirst hP heffect hA
  | cancelOrder h =>
    obtain ⟨order, O, T, A, horder, hid, hmay, hlegal, hO, hT, hA, rfl⟩ := cancelOrder_ok h
    exact .cancelled _ _ _ _ _ order O T A horder hid hmay hlegal hO hT hA
  | ingestRemittance h => exact .ingested _ _ _ _ (ingestRemittance_ok h)
  | issueChunk h => exact .issued _ _ _ _ _ (issueOrderChunk_ok h)
  | recordInspection h => exact .inspected _ _ _ _ _ (recordInspection_ok h)
  | activateStamps ha h => exact .activated _ _ _ _ _ _ _ ha (activateStamps_ok h)
  | voidStamps h => exact .retired _ _ (voidStamps_ok h)
  | expireDueStamps h => exact .retired _ _ (expireDueStamps_ok h)
  | createLedgerIntent h => exact .sameCore _ _ (createLedgerIntent_ok h).sameCore
  | ledgerWork work => exact .sameCore _ _ (work.sameCore settings s.db)
  | claimBatch h =>
    obtain ⟨candidates, M, -, -, -, rfl⟩ := claimBatch_ok h
    exact .sameCore _ _ ⟨rfl, rfl, rfl, rfl, rfl, rfl, rfl, rfl, rfl, rfl, rfl, rfl⟩
  | markProcessed h =>
    obtain ⟨M, -, rfl⟩ := markProcessed_ok h
    exact .sameCore _ _ ⟨rfl, rfl, rfl, rfl, rfl, rfl, rfl, rfl, rfl, rfl, rfl, rfl⟩
  | markFailed h =>
    obtain ⟨M, -, -, rfl⟩ := markFailed_ok h
    exact .sameCore _ _ ⟨rfl, rfl, rfl, rfl, rfl, rfl, rfl, rfl, rfl, rfl, rfl, rfl⟩
  | recordAudit h =>
    obtain ⟨A, -, rfl⟩ := recordAuditEvent_ok h
    exact .sameCore _ _ ⟨rfl, rfl, rfl, rfl, rfl, rfl, rfl, rfl, rfl, rfl, rfl, rfl⟩

/-- Every step of the platform is one of these changes. -/
theorem step_change (settings : Settings) (s : Platform) (e : Event) : Change settings s e (step settings s e).db :=
  (step_committed settings s e).change

/-- A platform small enough to evaluate runs on. -/
def sampleSettings : Settings where
  crypto :=
    let digest : Bytes → Bytes := fun message => [(message.take 2).foldr (fun byte acc => byte + 16 * acc) 0 + 1]
    ⟨digest, fun _ => digest⟩
  auditChainSecret := "chain"
  deviceHmacSecret := "device"
  revision := "r1"
  maxOrderQuantity := 1000

/-- One verified company of low risk. -/
def sampleCompanies : Table companySchema := ⟨[⟨⟨1⟩, "12345678", .verified, .low⟩], by decide +kernel⟩

/-- One tariff with a VAT of 7.5 percent. -/
def sampleTariffs : Table tariffSchema := ⟨[⟨⟨2⟩, "beverages", 1250, "NGN", 750, 0, none⟩], by decide +kernel⟩

/-- The platform with the sample company and tariff. -/
abbrev samplePlatform : Platform := .initial sampleCompanies sampleTariffs

/-- Registries that approve every request. -/
def sampleRegistries : ComplianceService where
  clients registry :=
    { name := registry.value
      configured := true
      exchange := fun _ _ => .answer 200 (some (.obj
        [("compliant", .bool true), ("reference", .str "R"), ("checked_at", .str "today")])) }

/-- The draws of the transaction with a number. -/
def sampleDraws (n : ℕ) : Draws where
  uuid k := ⟨100 * n + k⟩
  choices i := ⟨(n + i.val) % 32, Nat.mod_lt _ (by decide)⟩
  skipped := 0

/-- The first of March 2026. -/
def sampleNow : Time := 1772323200000000

/-- A requester of the sample company. -/
def sampleRequester : Actor := ⟨⟨11⟩, "req", .requester, some ⟨1⟩, none⟩

/-- An analyst. -/
def sampleAnalyst : Actor := ⟨⟨12⟩, "ana", .analyst, none, none⟩

/-- One stamp is ordered and the order is approved; its intent is over 13.44 naira. -/
def sampleApproved : List Event :=
  [.submitOrder sampleRegistries (sampleDraws 1) sampleRequester ⟨⟨1⟩, "beverages", 1, "Lagos", "Marina"⟩
      sampleNow none,
    .decideApproval (sampleDraws 2) sampleAnalyst ⟨⟨100⟩, .analyst, .approved, "ok"⟩ sampleNow none]

/-- A remittance for the intent of the sample order. -/
def sampleRemittance (n : ℕ) (externalReference : String) (amountMinor : ℤ) : Event :=
  .ingestRemittance (sampleDraws n)
    ⟨externalReference, reference "PAY" sampleNow (sampleDraws 2).choices, amountMinor, "NGN", sampleNow, []⟩ sampleNow

/-- The order is paid exactly and its stamp is printed. -/
def sampleIssued : List Event :=
  sampleApproved ++ [sampleRemittance 3 "BANK-1" 1344, .issueChunk (sampleDraws 4) ⟨100⟩ 100 sampleNow]

end TaxStamp
