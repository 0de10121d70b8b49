import TaxStamp.Lib.Accepts
import TaxStamp.LedgerBoundary
import TaxStamp.TigerBeetleWorkers

/-!
# The worker beside the boundary

The worker and the ledger boundary implement the same protocol over different records: the
worker's transfer has a code and flags that the boundary's does not. Both are run against
one script of client answers, and what they ask and decide is compared.
-/

namespace TaxStamp

open Lib

/-- The client of the worker, over its own state. -/
structure TigerBeetleClient (σ ε : Type) where
  lookupTransfer : String → σ → Except ε (Option TigerBeetleTransfer) × σ
  createTransfer : TigerBeetleTransfer → σ → Except ε TigerBeetleCreateResult × σ

/-- Why a worker's submission raises: a transaction failed, the client raised, or the transfer was missing after its
creation. -/
inductive SubmissionError (ε : Type)
  | transaction (fault : Fault)
  | client (error : ε)
  | dependencyUnavailable
  deriving DecidableEq

section Worker

variable {σ ε : Type} (settings : Settings) (draws : ℕ → Draws) (clock : ℕ → ℕ → Time)

/-- The last part of a worker's submission, over the transfer that was observed. -/
def confirmObserved (intentId : Uuid) (transfer : TigerBeetleTransfer) (db : Db) :
    Except (SubmissionError ε) SubmissionResult × Db :=
  match confirmOrQuarantine settings (draws 0) intentId transfer (clock 1) db with
  | .error fault => (.error (.transaction fault), db)
  | .ok (false, db₁) => (.ok .quarantined, db₁)
  | .ok (true, db₁) =>
    match finalisePosted settings (draws 1) intentId (clock 2) db₁ with
    | .error fault => (.error (.transaction fault), db₁)
    | .ok ((), db₂) => (.ok .posted, db₂)

/-- The part of a worker's submission after a creation that was answered. -/
def confirmCreated (client : TigerBeetleClient σ ε) (intentId : Uuid) (expected : TigerBeetleTransfer) (db : Db) (s : σ) :
    Except (SubmissionError ε) SubmissionResult × Db × σ :=
  match client.lookupTransfer expected.transferId s with
  | (.error error, s₁) => (.error (.client error), db, s₁)
  | (.ok none, s₁) => (.error .dependencyUnavailable, db, s₁)
  | (.ok (some observed), s₁) =>
    let (result, db₁) := confirmObserved settings draws clock intentId observed db
    (result, db₁, s₁)

/-- The part of a worker's submission after a lookup that found nothing. -/
def createAbsent (client : TigerBeetleClient σ ε) (intentId : Uuid) (expected : TigerBeetleTransfer) (db : Db) (s : σ) :
    Except (SubmissionError ε) SubmissionResult × Db × σ :=
  match client.createTransfer expected s with
  | (.error error, s₁) => (.error (.client error), db, s₁)
  | (.ok .rejected, s₁) =>
    match rejectLedgerIntent settings (draws 0) intentId "TigerBeetle rejected the transfer" (clock 1) db with
    | .error fault => (.error (.transaction fault), db, s₁)
    | .ok ((), db₁) => (.ok .rejected, db₁, s₁)
  | (.ok .created, s₁) | (.ok .exists, s₁) =>
    confirmCreated settings draws clock client intentId expected db s₁

/-- A worker's submission from its start to its end, with no other transaction in between. The readings of the
clock and the draws are numbered by transaction. -/
def submitIntentAlone (client : TigerBeetleClient σ ε) (intentId : Uuid) (db : Db) (s : σ) :
    Except (SubmissionError ε) SubmissionResult × Db × σ :=
  match markSubmissionUncertain intentId (clock 0) db with
  | .error fault => (.error (.transaction fault), db, s)
  | .ok (none, db₁) => (.ok .terminal, db₁, s)
  | .ok (some intent, db₁) =>
    let expected := transferFromIntent intent
    match client.lookupTransfer expected.transferId s with
    | (.error error, s₁) => (.error (.client error), db₁, s₁)
    | (.ok (some observed), s₁) =>
      let (result, db₂) := confirmObserved settings draws clock intentId observed db₁
      (result, db₂, s₁)
    | (.ok none, s₁) => createAbsent settings draws clock client intentId expected db₁ s₁

end Worker

/-! ### One script for both -/

/-- A transfer of the external ledger with the fields that the boundary does not carry. -/
structure ExternalTransfer extends ObservedTransfer where
  transferCode : ℤ
  transferFlags : ℤ
  timestamp : ℤ
  deriving DecidableEq

/-- The transfer as the worker observes it. -/
def ExternalTransfer.toTigerBeetle (t : ExternalTransfer) : TigerBeetleTransfer where
  transferId := t.transferId
  debitAccountId := t.debitAccountId
  creditAccountId := t.creditAccountId
  ledgerCode := t.ledgerCode.toNat
  transferCode := t.transferCode
  transferFlags := t.transferFlags
  amountMinor := t.amountMinor.toNat
  timestamp := t.timestamp

/-- The worker's name for an answer to a creation. -/
def CreateTransferResult.toTigerBeetle : CreateTransferResult → TigerBeetleCreateResult
  | .created => .created
  | .exists => .exists
  | .rejected => .rejected

/-- What a client answers to its calls, numbered from the start of a submission. -/
structure ClientAnswers (ε : Type) where
  lookup : ℕ → Except ε (Option ExternalTransfer)
  create : ℕ → Except ε CreateTransferResult

/-- A call that a submission makes. -/
inductive Asked (ρ : Type)
  | lookup (transferId : String)
  | create (request : ρ)
  deriving DecidableEq

namespace ClientAnswers

variable {ε : Type} (answers : ClientAnswers ε)

/-- The boundary's client that answers by the script; its state is the calls so far. -/
def boundaryClient : TransferClient (List (Asked TransferIntent)) ε where
  lookupTransfer transferId calls :=
    ((answers.lookup calls.length).map (Option.map ExternalTransfer.toObservedTransfer), calls ++ [.lookup transferId])
  createTransfer intent calls := (answers.create calls.length, calls ++ [.create intent])

/-- The worker's client that answers by the script. -/
def workerClient : TigerBeetleClient (List (Asked TigerBeetleTransfer)) ε where
  lookupTransfer transferId calls :=
    ((answers.lookup calls.length).map (Option.map ExternalTransfer.toTigerBeetle), calls ++ [.lookup transferId])
  createTransfer transfer calls :=
    ((answers.create calls.length).map CreateTransferResult.toTigerBeetle, calls ++ [.create transfer])

/-- The transfer that decides a submission: the one the first lookup finds, or the one found after a creation. -/
def decisive : Option ExternalTransfer :=
  match answers.lookup 0 with
  | .error _ => none
  | .ok (some t) => some t
  | .ok none =>
    match answers.create 1 with
    | .error _ | .ok .rejected => none
    | .ok .created | .ok .exists =>
      match answers.lookup 2 with
      | .ok found => found
      | .error _ => none

end ClientAnswers

/-- The boundary's intent and the worker's request are for the same transfer. -/
structure SameRequest (intent : TransferIntent) (transfer : TigerBeetleTransfer) : Prop where
  transferId : transfer.transferId = intent.transferId
  debitAccountId : transfer.debitAccountId = intent.debitAccountId
  creditAccountId : transfer.creditAccountId = intent.creditAccountId
  amountMinor : transfer.amountMinor = intent.amountMinor.toNat
  ledgerCode : transfer.ledgerCode = intent.ledgerCode.toNat

/-- The boundary and the worker make the same call. -/
inductive SameCall : Asked TransferIntent → Asked TigerBeetleTransfer → Prop
  | lookup (transferId : String) : SameCall (.lookup transferId) (.lookup transferId)
  | create (intent : TransferIntent) (transfer : TigerBeetleTransfer) (h : SameRequest intent transfer) :
      SameCall (.create intent) (.create transfer)

/-- What the boundary and the worker return is the same decision. -/
structure SameDecision {ε : Type} (boundary : Except (SubmitError ε) SubmitOutcome)
    (worker : Except (SubmissionError ε) SubmissionResult) : Prop where
  confirmed : boundary = .ok .confirmed ↔ worker = .ok .posted
  rejected : boundary = .ok .rejected ↔ worker = .ok .rejected
  mismatch : boundary = .error .existingTransferMismatch ↔ worker = .ok .quarantined
  missing : boundary = .error .missingAfterCreate ↔ worker = .error .dependencyUnavailable

/-- The boundary and the worker make the same calls in the same order and decide alike. -/
structure DecideAlike {ε : Type} (boundary : Except (SubmitError ε) SubmitOutcome × List (Asked TransferIntent))
    (worker : Except (SubmissionError ε) SubmissionResult × Db × List (Asked TigerBeetleTransfer)) : Prop
    extends SameDecision boundary.1 worker.1 where
  calls : List.Forall₂ SameCall boundary.2 worker.2.2

/-! ### The transactions of a fresh intent -/

/-- What an event of the worker reports. -/
def stateRecord (intentId : Uuid) (state : TigerBeetleLedgerIntentState) (action : String) (detail : JsonObject) :
    AuditRecord where
  action := action
  targetType := "tigerbeetle_ledger_intent"
  targetId := intentId.str
  outcome := if state ≠ .quarantined then .success else .failure
  afterState := some (("state", .str state.value) :: detail)

/-- Record events of the worker one after the other. -/
def recordEvents (settings : Settings) : List (Draws × AuditRecord × Time) → Session Unit
  | [] => return ()
  | (draws, record, now) :: rest => do
    let _ ← recordAuditEvent settings draws (draws.uuid 0) tigerbeetleRelay record now
    recordEvents settings rest

variable {settings : Settings} {db db' : Db} {intent : TigerBeetleLedgerIntent}

/-- Whether an event can be recorded depends on the audit trail only. -/
theorem recordAuditEvent_frame {draws : Draws} {eventId : Uuid} {actor : AuditActor} {record : AuditRecord} {now : Time}
    {event : AuditEvent} {after : Db} (h : recordAuditEvent settings draws eventId actor record now db = .ok (event, after))
    (hsame : db'.auditEvents = db.auditEvents) :
    ∃ A, after = Tables.auditEvents.set A db ∧
      recordAuditEvent settings draws eventId actor record now db' = .ok (event, Tables.auditEvents.set A db') := by
  simp only [recordAuditEvent, lastAuditEvent, Tx.bind_ok, selectFirst_ok, Tx.lift_ok, insertRow_ok, Tx.pure_ok] at h ⊢
  obtain ⟨last, _, ⟨hlast, rfl⟩, hash, _, ⟨hhash, rfl⟩, u, _, ⟨A, hA, rfl⟩, hevent, rfl⟩ := h
  rw [← hsame] at hA hlast
  exact ⟨A, rfl, last, db', ⟨hlast, rfl⟩, hash, db', ⟨hhash, rfl⟩, u, _, ⟨A, hA, rfl⟩, hevent, rfl⟩

/-- An event that can be recorded is recorded by the worker's transaction. -/
theorem recordStateAudit_of_takes {draws : Draws} {intentId : Uuid} {state : TigerBeetleLedgerIntentState}
    {action : String} {now : Time} {detail : JsonObject} {rest : List (Draws × AuditRecord × Time)}
    (h : (recordEvents settings ((draws, stateRecord intentId state action detail, now) :: rest) db).isOk = true)
    (hsame : db'.auditEvents = db.auditEvents) :
    ∃ A, recordStateAudit settings draws intentId state action now detail db' = .ok ((), Tables.auditEvents.set A db') ∧
      (recordEvents settings rest (Tables.auditEvents.set A db)).isOk = true := by
  rcases hok : recordEvents settings ((draws, stateRecord intentId state action detail, now) :: rest) db with
    _ | ⟨u, after⟩
  · rw [hok] at h
    cases h
  · simp only [recordEvents, Tx.bind_ok] at hok
    obtain ⟨event, db₁, hrecord, hrest⟩ := hok
    obtain ⟨A, rfl, hframe⟩ := recordAuditEvent_frame hrecord hsame
    refine ⟨A, ?_, by rw [hrest]; rfl⟩
    simp only [recordStateAudit, Tx.bind_ok, Tx.pure_ok]
    exact ⟨event, _, hframe, trivial, rfl⟩

/-- A stored intent is found under its identifier. -/
theorem lockLedgerIntent_of_mem (hmem : intent ∈ db.tigerbeetleLedgerIntents.rows) :
    lockLedgerIntent intent.id db = .ok (intent, db) := by
  refine fetch_ok.mpr ⟨?_, rfl⟩
  refine db.tigerbeetleLedgerIntents.filter_eq_singleton hmem (by simp) fun i _ hsame => ?_
  simp only [decide_eq_true_eq] at hsame
  simp [tigerbeetleLedgerIntentSchema, hsame]

/-- A rewriting that leaves what an intent is for. -/
structure KeepsMaterial (f : TigerBeetleLedgerIntent → TigerBeetleLedgerIntent) : Prop where
  id : ∀ i, (f i).id = i.id
  paymentIntentId : ∀ i, (f i).paymentIntentId = i.paymentIntentId
  transfer : ∀ i, transferFromIntent (f i) = transferFromIntent i
  currency : ∀ i, (f i).currency = i.currency
  payloadHash : ∀ i, (f i).payloadHash = i.payloadHash

/-- What the constraints ask of an intent beyond its material. -/
structure TigerBeetleLedgerIntent.Fits (i : TigerBeetleLedgerIntent) : Prop where
  attempts : 0 ≤ i.attemptCount ∧ integer i.attemptCount = true
  timestamp : i.externalTimestamp.all bigint = true
  error : i.lastError.all ('\x00' ∉ ·.toList) = true

/-- A stored intent fits. -/
theorem ledgerIntent_fits (hmem : intent ∈ db.tigerbeetleLedgerIntents.rows) : intent.Fits := by
  have hfits := db.tigerbeetleLedgerIntents.valid.fits intent hmem
  have hcheck := db.tigerbeetleLedgerIntents.valid.check intent hmem
  simp only [tigerbeetleLedgerIntentSchema, Bool.and_eq_true, decide_eq_true_eq] at hfits hcheck
  exact ⟨⟨by omega, hfits.1.1.1.2⟩, hfits.1.1.2, by simpa using hfits.2⟩

/-- The constraints of a rewritten intent. -/
theorem KeepsMaterial.constraints {f : TigerBeetleLedgerIntent → TigerBeetleLedgerIntent} (h : KeepsMaterial f)
    (hmem : intent ∈ db.tigerbeetleLedgerIntents.rows) (hfits : (f intent).Fits) :
    tigerbeetleLedgerIntentSchema.fits (f intent) = true ∧ tigerbeetleLedgerIntentSchema.check (f intent) = true := by
  have hwas := db.tigerbeetleLedgerIntents.valid.fits intent hmem
  have hcheck := db.tigerbeetleLedgerIntents.valid.check intent hmem
  have htransfer := h.transfer intent
  simp only [transferFromIntent, TigerBeetleTransfer.mk.injEq] at htransfer
  obtain ⟨hid, hdebit, hcredit, hledger, hcode, hflags, hamount, -⟩ := htransfer
  simp only [tigerbeetleLedgerIntentSchema, Bool.and_eq_true, decide_eq_true_eq] at hwas hcheck ⊢
  rw [hid, hdebit, hcredit, hledger, hcode, hflags, hamount, h.currency, h.payloadHash]
  have herror := hfits.error
  refine ⟨⟨⟨⟨⟨hwas.1.1.1.1, hfits.attempts.2⟩, hfits.timestamp⟩, hwas.1.2⟩, by simpa using herror⟩, ?_⟩
  obtain ⟨⟨⟨⟨⟨⟨⟨hmaterial, -⟩, hlength⟩, hupper⟩, hid⟩, hdebit⟩, hcredit⟩, hhash⟩ := hcheck
  exact ⟨⟨⟨⟨⟨⟨⟨hmaterial, hfits.attempts.1⟩, hlength⟩, hupper⟩, hid⟩, hdebit⟩, hcredit⟩, hhash⟩

/-- A stored intent is rewritten when the result fits. -/
theorem KeepsMaterial.setLedgerIntent {f : TigerBeetleLedgerIntent → TigerBeetleLedgerIntent} (h : KeepsMaterial f)
    (hmem : intent ∈ db.tigerbeetleLedgerIntents.rows) (hfits : (f intent).Fits) :
    ∃ L : Table tigerbeetleLedgerIntentSchema, f intent ∈ L.rows ∧
      TaxStamp.setLedgerIntent intent.id f db = .ok ((), Tables.tigerbeetleLedgerIntents.set L db) := by
  obtain ⟨hfits, hcheck⟩ := h.constraints hmem hfits
  have hother : ∀ i ∈ db.tigerbeetleLedgerIntents.rows, i.id = intent.id → i = intent :=
    fun i hi hid => ledgerIntent_eq_of_id db hi hmem hid
  have htransferId : ∀ i, (f i).tigerbeetleTransferId = i.tigerbeetleTransferId :=
    fun i => congrArg TigerBeetleTransfer.transferId (h.transfer i)
  obtain ⟨L, hL⟩ := db.tigerbeetleLedgerIntents.exists_map (fun i => if i.id = intent.id then f i else i)
    (by
      intro i hi
      split
      · rename_i hid
        rw [hother i hi hid, hfits, db.tigerbeetleLedgerIntents.valid.fits intent hmem]
      · rfl)
    (by
      intro i hi
      split
      · rename_i hid
        rw [hother i hi hid, hcheck, db.tigerbeetleLedgerIntents.valid.check intent hmem]
      · rfl)
    (by
      have hkey : ∀ i : TigerBeetleLedgerIntent, (if i.id = intent.id then f i else i).id = i.id ∧
          (if i.id = intent.id then f i else i).paymentIntentId = i.paymentIntentId ∧
          (if i.id = intent.id then f i else i).tigerbeetleTransferId = i.tigerbeetleTransferId := by
        intro i
        split
        · exact ⟨h.id i, h.paymentIntentId i, htransferId i⟩
        · exact ⟨rfl, rfl, rfl⟩
      intro a b
      simp only [tigerbeetleLedgerIntentSchema, (hkey a).1, (hkey b).1, (hkey a).2, (hkey b).2])
  refine ⟨L, ?_, updateRows_ok.mpr ⟨L, by simpa using hL, rfl⟩⟩
  rw [hL]
  exact List.mem_map.mpr ⟨intent, hmem, if_pos rfl⟩

/-- The attempt on a fresh intent is announced. -/
theorem markSubmissionUncertain_of_fresh (hmem : intent ∈ db.tigerbeetleLedgerIntents.rows)
    (hready : intent.state = .ready) (hfresh : intent.attemptCount = 0) (clock : ℕ → Time) :
    ∃ L : Table tigerbeetleLedgerIntentSchema, intent.attempted (clock 0) ∈ L.rows ∧
      markSubmissionUncertain intent.id clock db =
        .ok (some (intent.attempted (clock 0)), Tables.tigerbeetleLedgerIntents.set L db) := by
  have hkeeps : KeepsMaterial fun i => i.attempted (clock 0) :=
    ⟨fun _ => rfl, fun _ => rfl, fun _ => rfl, fun _ => rfl, fun _ => rfl⟩
  have hattempts : (intent.attempted (clock 0)).attemptCount = 1 := by
    simp [TigerBeetleLedgerIntent.attempted, hfresh]
  obtain ⟨L, hL, hset⟩ := hkeeps.setLedgerIntent hmem
    ⟨by rw [hattempts]; decide, (ledgerIntent_fits hmem).timestamp, rfl⟩
  refine ⟨L, hL, ?_⟩
  have hunfinished : ¬intent.state.finished := by
    rw [hready]
    decide
  simp only [markSubmissionUncertain, Tx.bind_ok]
  refine ⟨intent, db, lockLedgerIntent_of_mem hmem, ?_⟩
  rw [if_neg hunfinished]
  simp only [Tx.bind_ok, Tx.pure_ok]
  exact ⟨(), _, hset, trivial, rfl⟩

section Uncertain

variable (draws : ℕ → Draws) (clock : ℕ → ℕ → Time) {transfer : TigerBeetleTransfer}

/-- The rejection of an announced transfer is recorded. -/
theorem rejectLedgerIntent_of_uncertain {now : ℕ → Time} {reason : String} {events : Draws}
    (hmem : intent ∈ db'.tigerbeetleLedgerIntents.rows) (hstate : intent.state = .submissionUncertain)
    (hreason : '\x00' ∉ (reason.toList.take 2000)) (hsame : db'.auditEvents = db.auditEvents)
    (hrecord : (recordEvents settings [(events, stateRecord intent.id .rejected "tigerbeetle.intent.rejected"
      [("reason", .str (String.ofList (reason.toList.take 500)))], now 1)] db).isOk = true) :
    ∃ after, rejectLedgerIntent settings events intent.id reason now db' = .ok ((), after) := by
  have hkeeps : KeepsMaterial fun i => i.reject reason (now 0) :=
    ⟨fun _ => rfl, fun _ => rfl, fun _ => rfl, fun _ => rfl, fun _ => rfl⟩
  have hfits := ledgerIntent_fits hmem
  obtain ⟨L, hL, hset⟩ := hkeeps.setLedgerIntent hmem
    ⟨hfits.attempts, hfits.timestamp, by simpa [TigerBeetleLedgerIntent.reject] using hreason⟩
  obtain ⟨A, haudit, -⟩ := recordStateAudit_of_takes hrecord
    (show (Tables.tigerbeetleLedgerIntents.set L db').auditEvents = db.auditEvents from hsame)
  refine ⟨Tables.auditEvents.set A (Tables.tigerbeetleLedgerIntents.set L db'), ?_⟩
  simp only [rejectLedgerIntent, Tx.bind_ok, assertLedgerTransition, Tx.require_ok]
  exact ⟨intent, db', lockLedgerIntent_of_mem hmem, (), db', ⟨by rw [hstate]; decide, rfl⟩, (), _, hset, haudit⟩

/-- A differing transfer quarantines an announced intent. -/
theorem confirmObserved_of_mismatch {ε : Type} (hmem : intent ∈ db'.tigerbeetleLedgerIntents.rows)
    (hstate : intent.state = .submissionUncertain) (hsame : db'.auditEvents = db.auditEvents)
    (hmismatch : transferMatches intent transfer = false)
    (hrecord : (recordEvents settings [(draws 0, stateRecord intent.id .quarantined "tigerbeetle.intent.quarantined"
      [("external_timestamp", .int transfer.timestamp)], clock 1 1)] db).isOk = true) :
    (confirmObserved (ε := ε) settings draws clock intent.id transfer db').1 = .ok .quarantined := by
  have hkeeps : KeepsMaterial fun i => i.quarantine (clock 1 0) :=
    ⟨fun _ => rfl, fun _ => rfl, fun _ => rfl, fun _ => rfl, fun _ => rfl⟩
  have hfits := ledgerIntent_fits hmem
  obtain ⟨L, hL, hset⟩ := hkeeps.setLedgerIntent hmem
    ⟨hfits.attempts, hfits.timestamp, by simp only [TigerBeetleLedgerIntent.quarantine]; decide⟩
  obtain ⟨A, haudit, -⟩ := recordStateAudit_of_takes hrecord
    (show (Tables.tigerbeetleLedgerIntents.set L db').auditEvents = db.auditEvents from hsame)
  have hquarantine : confirmOrQuarantine settings (draws 0) intent.id transfer (clock 1) db' =
      .ok (false, Tables.auditEvents.set A (Tables.tigerbeetleLedgerIntents.set L db')) := by
    simp only [confirmOrQuarantine, Tx.bind_ok]
    refine ⟨intent, db', lockLedgerIntent_of_mem hmem, ?_⟩
    rw [if_neg (by rw [hmismatch]; decide)]
    simp only [Tx.bind_ok, assertLedgerTransition, Tx.require_ok, Tx.pure_ok]
    exact ⟨(), db', ⟨by rw [hstate]; decide, rfl⟩, (), _, hset, (), _, haudit, trivial, rfl⟩
  rw [confirmObserved, hquarantine]

/-- A matching transfer whose timestamp fits its column confirms an announced intent. -/
theorem confirmOrQuarantine_of_match {now : ℕ → Time} {events : Draws} {rest : List (Draws × AuditRecord × Time)}
    (hmem : intent ∈ db'.tigerbeetleLedgerIntents.rows) (hstate : intent.state = .submissionUncertain)
    (hsame : db'.auditEvents = db.auditEvents) (hmatches : transferMatches intent transfer = true)
    (htimestamp : bigint transfer.timestamp = true)
    (hrecord : (recordEvents settings
      ((events, stateRecord intent.id .externalConfirmed "tigerbeetle.intent.external_confirmed"
        [("external_timestamp", .int transfer.timestamp)], now 2) :: rest) db).isOk = true) :
    ∃ (L : Table tigerbeetleLedgerIntentSchema) (A : Table auditEventSchema),
      intent.confirmed transfer.timestamp (now 0) (now 1) ∈ L.rows ∧
      confirmOrQuarantine settings events intent.id transfer now db' =
        .ok (true, Tables.auditEvents.set A (Tables.tigerbeetleLedgerIntents.set L db')) ∧
      (recordEvents settings rest (Tables.auditEvents.set A db)).isOk = true := by
  have hkeeps : KeepsMaterial fun i => i.confirmed transfer.timestamp (now 0) (now 1) :=
    ⟨fun _ => rfl, fun _ => rfl, fun _ => rfl, fun _ => rfl, fun _ => rfl⟩
  have hfits := ledgerIntent_fits hmem
  have hconfirmed : (intent.confirmed transfer.timestamp (now 0) (now 1)).state = .externalConfirmed := by
    simp [TigerBeetleLedgerIntent.confirmed, hstate]
  obtain ⟨L, hL, hset⟩ := hkeeps.setLedgerIntent hmem ⟨hfits.attempts, htimestamp, hfits.error⟩
  obtain ⟨A, haudit, hrest⟩ := recordStateAudit_of_takes hrecord
    (show (Tables.tigerbeetleLedgerIntents.set L db').auditEvents = db.auditEvents from hsame)
  refine ⟨L, A, hL, ?_, hrest⟩
  simp only [confirmOrQuarantine, Tx.bind_ok]
  refine ⟨intent, db', lockLedgerIntent_of_mem hmem, ?_⟩
  rw [if_pos hmatches, hconfirmed]
  simp only [Tx.bind_ok, Tx.pure_ok]
  exact ⟨(), _, hset, (), _, haudit, trivial, rfl⟩

/-- A confirmed intent is posted. -/
theorem finalisePosted_of_confirmed {now : ℕ → Time} {events : Draws} {timestamp : ℤ}
    (hmem : intent ∈ db'.tigerbeetleLedgerIntents.rows) (hstate : intent.state = .externalConfirmed)
    (htimestamp : intent.externalTimestamp = some timestamp) (hsame : db'.auditEvents = db.auditEvents)
    (hrecord : (recordEvents settings [(events, stateRecord intent.id .posted "tigerbeetle.intent.posted"
      [("external_timestamp", .int timestamp)], now 2)] db).isOk = true) :
    ∃ after, finalisePosted settings events intent.id now db' = .ok ((), after) := by
  have hkeeps : KeepsMaterial fun i => i.post (now 0) (now 1) :=
    ⟨fun _ => rfl, fun _ => rfl, fun _ => rfl, fun _ => rfl, fun _ => rfl⟩
  have hfits := ledgerIntent_fits hmem
  obtain ⟨L, -, hset⟩ := hkeeps.setLedgerIntent hmem ⟨hfits.attempts, hfits.timestamp, hfits.error⟩
  obtain ⟨A, haudit, -⟩ := recordStateAudit_of_takes hrecord
    (show (Tables.tigerbeetleLedgerIntents.set L db').auditEvents = db.auditEvents from hsame)
  refine ⟨Tables.auditEvents.set A (Tables.tigerbeetleLedgerIntents.set L db'), ?_⟩
  simp only [finalisePosted, Tx.bind_ok]
  refine ⟨intent, db', lockLedgerIntent_of_mem hmem, ?_⟩
  rw [if_neg (by rw [hstate]; decide), hstate, htimestamp]
  simp only [Tx.bind_ok, assertLedgerTransition, Tx.require_ok]
  exact ⟨(), _, ⟨by decide, rfl⟩, (), _, hset, haudit⟩

/-- A matching transfer whose timestamp fits its column posts an announced intent. -/
theorem confirmObserved_of_match {ε : Type} (hmem : intent ∈ db'.tigerbeetleLedgerIntents.rows)
    (hstate : intent.state = .submissionUncertain) (hsame : db'.auditEvents = db.auditEvents)
    (hmatches : transferMatches intent transfer = true) (htimestamp : bigint transfer.timestamp = true)
    (hrecord : (recordEvents settings
      [(draws 0, stateRecord intent.id .externalConfirmed "tigerbeetle.intent.external_confirmed"
        [("external_timestamp", .int transfer.timestamp)], clock 1 2),
       (draws 1, stateRecord intent.id .posted "tigerbeetle.intent.posted"
        [("external_timestamp", .int transfer.timestamp)], clock 2 2)] db).isOk = true) :
    (confirmObserved (ε := ε) settings draws clock intent.id transfer db').1 = .ok .posted := by
  obtain ⟨L, A, hL, hconfirm, hrest⟩ := confirmOrQuarantine_of_match hmem hstate hsame hmatches htimestamp hrecord
  have hconfirmed : (intent.confirmed transfer.timestamp (clock 1 0) (clock 1 1)).state = .externalConfirmed := by
    simp [TigerBeetleLedgerIntent.confirmed, hstate]
  -- The second transaction starts from the confirmed intent and the first event.
  have hmem₁ : intent.confirmed transfer.timestamp (clock 1 0) (clock 1 1) ∈
      (Tables.auditEvents.set A (Tables.tigerbeetleLedgerIntents.set L db')).tigerbeetleLedgerIntents.rows := hL
  obtain ⟨after, hpost⟩ := finalisePosted_of_confirmed hmem₁ hconfirmed rfl
    (show _ = (Tables.auditEvents.set A db).auditEvents from rfl) hrest
  change finalisePosted settings (draws 1) intent.id (clock 2) _ = _ at hpost
  rw [confirmObserved, hconfirm]
  dsimp only
  rw [hpost]

/-- A matching transfer whose timestamp does not fit its column fails the confirmation. -/
theorem confirmObserved_of_overflow {ε : Type} (settings : Settings) (hmem : intent ∈ db.tigerbeetleLedgerIntents.rows)
    (hmatches : transferMatches intent transfer = true) (htimestamp : bigint transfer.timestamp = false) :
    ∃ fault, (confirmObserved (ε := ε) settings draws clock intent.id transfer db).1 = .error (.transaction fault) := by
  cases hconfirm : confirmOrQuarantine settings (draws 0) intent.id transfer (clock 1) db with
  | error fault =>
    refine ⟨fault, ?_⟩
    rw [confirmObserved, hconfirm]
  | ok result =>
    obtain ⟨result, after⟩ := result
    simp only [confirmOrQuarantine, Tx.bind_ok] at hconfirm
    obtain ⟨locked, db₁, hlock, hrest⟩ := hconfirm
    obtain ⟨hlocked, hid, rfl⟩ := lockLedgerIntent_ok hlock
    obtain rfl := ledgerIntent_eq_of_id db hlocked hmem hid
    rw [if_pos hmatches] at hrest
    simp only [Tx.bind_ok] at hrest
    obtain ⟨u, db₂, hset, -⟩ := hrest
    -- The table would hold the timestamp.
    obtain ⟨L, hL, -⟩ := setLedgerIntent_ok hset
    have hrow : locked.confirmed transfer.timestamp (clock 1 0) (clock 1 1) ∈ L.rows := by
      rw [hL]
      exact List.mem_map.mpr ⟨locked, hmem, if_pos rfl⟩
    have hfits := L.valid.fits _ hrow
    simp [tigerbeetleLedgerIntentSchema, TigerBeetleLedgerIntent.confirmed, htimestamp] at hfits

end Uncertain

/-- The audit trail takes the events that a submission may record. -/
structure TakesEvents {ε : Type} (settings : Settings) (draws : ℕ → Draws) (clock : ℕ → ℕ → Time) (intentId : Uuid)
    (answers : ClientAnswers ε) (db : Db) : Prop where
  rejected : (recordEvents settings [(draws 0, stateRecord intentId .rejected "tigerbeetle.intent.rejected"
    [("reason", .str (String.ofList ("TigerBeetle rejected the transfer".toList.take 500)))], clock 1 1)] db).isOk = true
  quarantined : ∀ t ∈ answers.decisive, (recordEvents settings
    [(draws 0, stateRecord intentId .quarantined "tigerbeetle.intent.quarantined"
      [("external_timestamp", .int t.timestamp)], clock 1 1)] db).isOk = true
  posted : ∀ t ∈ answers.decisive, (recordEvents settings
    [(draws 0, stateRecord intentId .externalConfirmed "tigerbeetle.intent.external_confirmed"
      [("external_timestamp", .int t.timestamp)], clock 1 2),
     (draws 1, stateRecord intentId .posted "tigerbeetle.intent.posted"
      [("external_timestamp", .int t.timestamp)], clock 2 2)] db).isOk = true

/-- The worker compares what the boundary compares, and the code and the flags. -/
theorem transferMatches_iff {asked : TransferIntent} (hasked : SameRequest asked (transferFromIntent intent))
    (t : ExternalTransfer) :
    transferMatches intent t.toTigerBeetle = true ↔ matchesIntent asked t.toObservedTransfer = true ∧
      t.transferCode = intent.transferCode ∧ t.transferFlags = intent.transferFlags := by
  obtain ⟨hid, hdebit, hcredit, hamount, hledger⟩ := hasked
  simp only [transferFromIntent] at hid hdebit hcredit hamount hledger
  have hamounts : t.amountMinor.toNat = intent.amountMinor ↔ asked.amountMinor = t.amountMinor := by
    rw [hamount, Nat.cast_inj, ← BitVec.toNat_inj, eq_comm]
  have hledgers : t.ledgerCode.toNat = intent.ledgerCode ↔ asked.ledgerCode = t.ledgerCode := by
    rw [hledger, Nat.cast_inj, ← BitVec.toNat_inj, eq_comm]
  have htexts : ∀ a b : String, a = b ↔ b = a := fun a b => eq_comm
  simp only [transferMatches, matchesIntent, Bool.and_eq_true, decide_eq_true_eq]
  simp only [ExternalTransfer.toTigerBeetle, hamounts, hledgers, hid, hdebit, hcredit, htexts t.transferId,
    htexts t.debitAccountId, htexts t.creditAccountId]
  tauto

/-- A decisive transfer is judged alike exactly when one that the boundary confirms also agrees in the code and the
flags and has a timestamp that fits its column. -/
theorem sameDecision_observed_iff {ε : Type} {draws : ℕ → Draws} {clock : ℕ → ℕ → Time} {asked : TransferIntent}
    {t : ExternalTransfer} {answers : ClientAnswers ε} (hmem : intent ∈ db'.tigerbeetleLedgerIntents.rows)
    (hstate : intent.state = .submissionUncertain) (hsame : db'.auditEvents = db.auditEvents)
    (hasked : SameRequest asked (transferFromIntent intent)) (ht : t ∈ answers.decisive)
    (htakes : TakesEvents settings draws clock intent.id answers db) :
    SameDecision (asked.verdict t.toObservedTransfer)
        (confirmObserved (ε := ε) settings draws clock intent.id t.toTigerBeetle db').1 ↔
      (matchesIntent asked t.toObservedTransfer = true → t.transferCode = intent.transferCode ∧
        t.transferFlags = intent.transferFlags ∧ bigint t.timestamp = true) := by
  have hiff := transferMatches_iff hasked t
  cases hshared : matchesIntent asked t.toObservedTransfer with
  | false =>
    have hmismatch : transferMatches intent t.toTigerBeetle = false := by
      rw [← Bool.not_eq_true, hiff, hshared]
      simp
    rw [confirmObserved_of_mismatch draws clock hmem hstate hsame hmismatch (htakes.quarantined t ht), TransferIntent.verdict,
      hshared]
    simp only [Bool.false_eq_true, if_false, false_imp_iff, iff_true]
    constructor <;> simp
  | true =>
    simp only [TransferIntent.verdict, hshared, if_true, true_imp_iff]
    rw [hshared] at hiff
    simp only [true_and] at hiff
    constructor
    · intro hdecision
      have hposted := hdecision.confirmed.mp rfl
      by_cases hmatches : transferMatches intent t.toTigerBeetle = true
      · obtain ⟨hcode, hflags⟩ := hiff.mp hmatches
        refine ⟨hcode, hflags, ?_⟩
        by_contra hoverflow
        have hbig : bigint t.toTigerBeetle.timestamp = false := Bool.eq_false_iff.mpr hoverflow
        obtain ⟨fault, hfault⟩ := confirmObserved_of_overflow (ε := ε) draws clock settings hmem hmatches hbig
        rw [hfault] at hposted
        cases hposted
      · have hmismatch : transferMatches intent t.toTigerBeetle = false := Bool.eq_false_iff.mpr hmatches
        rw [confirmObserved_of_mismatch draws clock hmem hstate hsame hmismatch (htakes.quarantined t ht)] at hposted
        cases hposted
    · rintro ⟨hcode, hflags, htimestamp⟩
      have hmatches : transferMatches intent t.toTigerBeetle = true := hiff.mpr ⟨hcode, hflags⟩
      have hfits : bigint t.toTigerBeetle.timestamp = true := htimestamp
      rw [confirmObserved_of_match draws clock hmem hstate hsame hmatches hfits (htakes.posted t ht)]
      constructor <;> simp

/-- Where a transfer is decisive, deciding alike is judging it alike. -/
theorem decideAlike_of_decisive {ε : Type} {boundary : Except (SubmitError ε) SubmitOutcome}
    {worker : Except (SubmissionError ε) SubmissionResult} {calls : List (Asked TransferIntent)}
    {calls' : List (Asked TigerBeetleTransfer)} {t : ExternalTransfer} {P : ExternalTransfer → Prop}
    (hcalls : List.Forall₂ SameCall calls calls') (h : SameDecision boundary worker ↔ P t) (after : Db) :
    DecideAlike (boundary, calls) (worker, after, calls') ↔ ∀ t' ∈ some t, P t' := by
  constructor
  · rintro halike t' ⟨⟩
    exact h.mp halike.toSameDecision
  · intro hall
    exact ⟨h.mpr (hall t rfl), hcalls⟩

/-- Where no transfer is decisive, the two decide alike. -/
theorem decideAlike_of_none {ε : Type} {boundary : Except (SubmitError ε) SubmitOutcome}
    {worker : Except (SubmissionError ε) SubmissionResult} {calls : List (Asked TransferIntent)}
    {calls' : List (Asked TigerBeetleTransfer)} {P : ExternalTransfer → Prop}
    (hcalls : List.Forall₂ SameCall calls calls') (h : SameDecision boundary worker) (after : Db) :
    DecideAlike (boundary, calls) (worker, after, calls') ↔ ∀ t ∈ (none : Option ExternalTransfer), P t :=
  ⟨fun _ t ht => absurd ht (Option.not_mem_none t), fun _ => ⟨h, hcalls⟩⟩

/-- After a creation that was answered, the second lookup decides. -/
theorem decideAlike_created_iff {ε : Type} {answers : ClientAnswers ε} {asked : TransferIntent} {intentId : Uuid}
    {draws : ℕ → Draws} {clock : ℕ → ℕ → Time} {expected : TigerBeetleTransfer} {P : ExternalTransfer → Prop}
    (hexpected : SameRequest asked expected)
    (hobserved : ∀ t, answers.lookup 2 = .ok (some t) → (SameDecision (asked.verdict t.toObservedTransfer)
      (confirmObserved (ε := ε) settings draws clock intentId t.toTigerBeetle db).1 ↔ P t)) :
    DecideAlike (lookupAfterCreate answers.boundaryClient asked [.lookup asked.transferId, .create asked])
        (confirmCreated settings draws clock answers.workerClient intentId expected db
          [.lookup expected.transferId, .create expected]) ↔
      ∀ t ∈ (match answers.lookup 2 with
        | .ok found => found
        | .error _ => none), P t := by
  have hlook : SameCall (.lookup asked.transferId) (.lookup expected.transferId) := by
    rw [hexpected.transferId]
    exact .lookup asked.transferId
  have hcalls : List.Forall₂ SameCall [.lookup asked.transferId, .create asked, .lookup asked.transferId]
      [.lookup expected.transferId, .create expected, .lookup expected.transferId] :=
    .cons hlook (.cons (.create _ _ hexpected) (.cons hlook .nil))
  simp only [lookupAfterCreate, confirmCreated, ClientAnswers.boundaryClient, ClientAnswers.workerClient, List.length_cons,
    List.length_nil, List.cons_append, List.nil_append]
  rcases hlast : answers.lookup 2 with error | _ | t <;> simp only [Except.map, Option.map]
  · exact decideAlike_of_none hcalls (by constructor <;> simp) _
  · exact decideAlike_of_none hcalls (by constructor <;> simp) _
  · exact decideAlike_of_decisive hcalls (hobserved t hlast) _

/-- For an intent that both validators accept and that is freshly ready, and every script of answers, the boundary and
the worker make the same calls and decide alike exactly when a decisive transfer that the boundary confirms also
agrees with the intent in its code and its flags and has a timestamp that fits its column. -/
theorem decideAlike_iff {ε : Type} (settings : Settings) (db : Db) (draws : ℕ → Draws) (clock : ℕ → ℕ → Time)
    (intent : TigerBeetleLedgerIntent) (asked : TransferIntent) (answers : ClientAnswers ε)
    (hmem : intent ∈ db.tigerbeetleLedgerIntents.rows) (hready : intent.state = .ready) (hfresh : intent.attemptCount = 0)
    (hasked : SameRequest asked (transferFromIntent intent)) (hvalid : asked.validate = .ok ())
    (htakes : TakesEvents settings draws clock intent.id answers db) :
    DecideAlike (submitLookupBeforeRetry answers.boundaryClient asked [])
        (submitIntentAlone settings draws clock answers.workerClient intent.id db []) ↔
      ∀ t ∈ answers.decisive, matchesIntent asked t.toObservedTransfer = true → t.transferCode = intent.transferCode ∧
        t.transferFlags = intent.transferFlags ∧ bigint t.timestamp = true := by
  obtain ⟨L, hannounced, hmark⟩ := markSubmissionUncertain_of_fresh hmem hready hfresh (clock 0)
  have hstate : (intent.attempted (clock 0 0)).state = .submissionUncertain := by
    simp [TigerBeetleLedgerIntent.attempted, hready]
  have hsame : (Tables.tigerbeetleLedgerIntents.set L db).auditEvents = db.auditEvents := rfl
  change _ ∈ (Tables.tigerbeetleLedgerIntents.set L db).tigerbeetleLedgerIntents.rows at hannounced
  generalize Tables.tigerbeetleLedgerIntents.set L db = db₁ at hannounced hmark hsame
  have hreject := rejectLedgerIntent_of_uncertain hannounced hstate (by decide) hsame htakes.rejected
  change ∃ after, rejectLedgerIntent settings (draws 0) intent.id _ (clock 1) db₁ = _ at hreject
  have hobserved := fun (t : ExternalTransfer) (ht : t ∈ answers.decisive) =>
    sameDecision_observed_iff hannounced hstate hsame hasked ht htakes
  have hlook : SameCall (.lookup asked.transferId) (.lookup (transferFromIntent intent).transferId) := by
    rw [hasked.transferId]
    exact .lookup asked.transferId
  have hexpected : transferFromIntent (intent.attempted (clock 0 0)) = transferFromIntent intent := rfl
  rw [submitIntentAlone, hmark, submitLookupBeforeRetry, hvalid]
  dsimp only
  rw [hexpected]
  unfold ClientAnswers.decisive at hobserved ⊢
  rcases hfirst : answers.lookup 0 with error | _ | t
  case error =>
    simp only [ClientAnswers.boundaryClient, ClientAnswers.workerClient, List.length_nil, hfirst, Except.map]
    exact decideAlike_of_none (.cons hlook .nil) (by constructor <;> simp) _
  case ok.some =>
    simp only [hfirst] at hobserved
    simp only [ClientAnswers.boundaryClient, ClientAnswers.workerClient, List.length_nil, hfirst, Except.map, Option.map]
    exact decideAlike_of_decisive (.cons hlook .nil) (hobserved t rfl) _
  case ok.none =>
    have hboundary : answers.boundaryClient.lookupTransfer asked.transferId [] =
        (.ok none, [.lookup asked.transferId]) := by
      simp [ClientAnswers.boundaryClient, hfirst, Except.map]
    have hworker : answers.workerClient.lookupTransfer (transferFromIntent intent).transferId [] =
        (.ok none, [.lookup (transferFromIntent intent).transferId]) := by
      simp [ClientAnswers.workerClient, hfirst, Except.map]
    have hcalls : List.Forall₂ SameCall [.lookup asked.transferId, .create asked]
        [.lookup (transferFromIntent intent).transferId, .create (transferFromIntent intent)] :=
      .cons hlook (.cons (.create _ _ hasked) .nil)
    have hboundary₁ : answers.boundaryClient.createTransfer asked [.lookup asked.transferId] =
        (answers.create 1, [.lookup asked.transferId, .create asked]) := rfl
    have hworker₁ : answers.workerClient.createTransfer (transferFromIntent intent)
          [.lookup (transferFromIntent intent).transferId] = ((answers.create 1).map CreateTransferResult.toTigerBeetle,
          [.lookup (transferFromIntent intent).transferId, .create (transferFromIntent intent)]) := rfl
    rw [hboundary, hworker]
    simp only [createAbsent, hboundary₁, hworker₁]
    simp only [hfirst] at hobserved
    obtain ⟨after, hreject⟩ := hreject
    rcases hsecond : answers.create 1 with error | _ | _ | _ <;>
      simp only [hsecond, Except.map, CreateTransferResult.toTigerBeetle] at hobserved ⊢
    case error => exact decideAlike_of_none hcalls (by constructor <;> simp) _
    case ok.rejected =>
      rw [hreject]
      exact decideAlike_of_none hcalls (by constructor <;> simp) _
    all_goals
      refine decideAlike_created_iff hasked fun t ht => ?_
      simp only [ht] at hobserved
      exact hobserved t rfl

/-- The boundary's intent for the transfer of the sample. -/
def sampleAsked : TransferIntent :=
  ⟨"0000000000000000000000000000000a", "0000000000000000000000000000000b", "0000000000000000000000000000000c", 1344, 566⟩

/-- A ledger that holds the transfer of the sample under some code. -/
def sampleAnswers (transferCode : ℤ) : ClientAnswers Unit where
  lookup _ := .ok (some ⟨⟨"0000000000000000000000000000000a", "0000000000000000000000000000000b",
    "0000000000000000000000000000000c", 1344, 566⟩, transferCode, 0, 123456⟩)
  create _ := .ok .created

/-- What the two make of the transfer of the sample, and what the trail takes. -/
theorem sampleRequested_run :
    let db := (run (step sampleLedgerSettings) (.initial sampleCompanies sampleTariffs) sampleRequested).db
    let draws := fun n => sampleDraws (5 + n)
    (∃ intent ∈ db.tigerbeetleLedgerIntents.rows, intent.id = ⟨400⟩ ∧ intent.state = .ready ∧ intent.attemptCount = 0 ∧
      intent.transferCode = 7 ∧ intent.transferFlags = 0 ∧
      transferFromIntent intent = ⟨"0000000000000000000000000000000a", "0000000000000000000000000000000b",
        "0000000000000000000000000000000c", 566, 7, 0, 1344, 0⟩) ∧
    (recordEvents sampleLedgerSettings [(draws 0, stateRecord ⟨400⟩ .rejected "tigerbeetle.intent.rejected"
      [("reason", .str (String.ofList ("TigerBeetle rejected the transfer".toList.take 500)))], sampleNow)] db).isOk = true ∧
    (recordEvents sampleLedgerSettings [(draws 0, stateRecord ⟨400⟩ .quarantined "tigerbeetle.intent.quarantined"
      [("external_timestamp", .int 123456)], sampleNow)] db).isOk = true ∧
    (recordEvents sampleLedgerSettings
      [(draws 0, stateRecord ⟨400⟩ .externalConfirmed "tigerbeetle.intent.external_confirmed"
        [("external_timestamp", .int 123456)], sampleNow),
       (draws 1, stateRecord ⟨400⟩ .posted "tigerbeetle.intent.posted"
        [("external_timestamp", .int 123456)], sampleNow)] db).isOk = true ∧
    (submitIntentAlone sampleLedgerSettings draws (fun _ _ => sampleNow) (sampleAnswers 8).workerClient ⟨400⟩ db []).1 =
      .ok .quarantined := by
  decide +kernel

/-- The transfer that the sample intent asks for is what the boundary's intent asks for. -/
theorem sampleAsked_same {intent : TigerBeetleLedgerIntent}
    (h : transferFromIntent intent = ⟨"0000000000000000000000000000000a", "0000000000000000000000000000000b",
        "0000000000000000000000000000000c", 566, 7, 0, 1344, 0⟩) :
    SameRequest sampleAsked (transferFromIntent intent) := by
  rw [h]
  exact ⟨rfl, rfl, rfl, rfl, rfl⟩

/-- The two decide alike on the transfer of the sample under its own code. -/
theorem decideAlike_sample :
    DecideAlike (submitLookupBeforeRetry (sampleAnswers 7).boundaryClient sampleAsked [])
      (submitIntentAlone sampleLedgerSettings (fun n => sampleDraws (5 + n)) (fun _ _ => sampleNow)
        (sampleAnswers 7).workerClient ⟨400⟩
        (run (step sampleLedgerSettings) (.initial sampleCompanies sampleTariffs) sampleRequested).db []) := by
  obtain ⟨⟨intent, hmem, hid, hready, hfresh, hcode, hflags, htransfer⟩, hrejected, hquarantined, hposted, -⟩ :=
    sampleRequested_run
  have hvalid : sampleAsked.validate = .ok () := by decide
  have htimestamp : bigint 123456 = true := by decide
  generalize (run (step sampleLedgerSettings) (.initial sampleCompanies sampleTariffs) sampleRequested).db = db at *
  rw [← hid] at hrejected hquarantined hposted ⊢
  have htakes : TakesEvents sampleLedgerSettings (fun n => sampleDraws (5 + n)) (fun _ _ => sampleNow) intent.id
      (sampleAnswers 7) db := by
    refine ⟨hrejected, ?_, ?_⟩
    · rintro t ⟨⟩
      exact hquarantined
    · rintro t ⟨⟩
      exact hposted
  refine (decideAlike_iff sampleLedgerSettings db _ _ intent sampleAsked (sampleAnswers 7) hmem hready hfresh
    (sampleAsked_same htransfer) hvalid htakes).mpr ?_
  rintro t ⟨⟩ -
  rw [hcode, hflags]
  exact ⟨rfl, rfl, htimestamp⟩

/-- Under another code, the boundary confirms the transfer and the worker quarantines the intent. -/
theorem not_decideAlike :
    let db := (run (step sampleLedgerSettings) (.initial sampleCompanies sampleTariffs) sampleRequested).db
    (∃ intent ∈ db.tigerbeetleLedgerIntents.rows, intent.id = ⟨400⟩ ∧ intent.state = .ready ∧ intent.attemptCount = 0 ∧
      SameRequest sampleAsked (transferFromIntent intent)) ∧ sampleAsked.validate = .ok () ∧
    (submitLookupBeforeRetry (sampleAnswers 8).boundaryClient sampleAsked []).1 = .ok .confirmed ∧
    (submitIntentAlone sampleLedgerSettings (fun n => sampleDraws (5 + n)) (fun _ _ => sampleNow)
      (sampleAnswers 8).workerClient ⟨400⟩ db []).1 = .ok .quarantined ∧
    ¬DecideAlike (submitLookupBeforeRetry (sampleAnswers 8).boundaryClient sampleAsked [])
      (submitIntentAlone sampleLedgerSettings (fun n => sampleDraws (5 + n)) (fun _ _ => sampleNow)
        (sampleAnswers 8).workerClient ⟨400⟩ db []) := by
  obtain ⟨⟨intent, hmem, hid, hready, hfresh, -, -, htransfer⟩, -, -, -, hworker⟩ := sampleRequested_run
  have hvalid : sampleAsked.validate = .ok () := by decide
  have hboundary : (submitLookupBeforeRetry (sampleAnswers 8).boundaryClient sampleAsked []).1 = .ok .confirmed := by
    decide
  refine ⟨⟨intent, hmem, hid, hready, hfresh, sampleAsked_same htransfer⟩, hvalid, hboundary, hworker, fun halike => ?_⟩
  have hposted := halike.confirmed.mp hboundary
  rw [hworker] at hposted
  cases hposted

end TaxStamp
