import TaxStamp.Lib.Relates
import TaxStamp.System

/-!
# What each transaction puts on the trail

Every transaction records its own action. A property of the audit events of one kind can
therefore be proved from the transactions that record that kind.
-/

namespace TaxStamp

open Lib

/-- The trail has grown by events that report what the condition allows. -/
def TrailGrows (P : AuditRecord → Prop) (db db' : Db) : Prop :=
  ∃ new, db'.auditEvents.rows = db.auditEvents.rows ++ new ∧ ∀ a ∈ new, P a.record

variable {P : AuditRecord → Prop} {settings : Settings} {db db' : Db}

/-- A write to another table adds no event. -/
theorem TrailGrows.of_eq (h : db'.auditEvents = db.auditEvents) : TrailGrows P db db' :=
  ⟨[], by rw [h, List.append_nil], fun _ ha => absurd ha List.not_mem_nil⟩

instance (P : AuditRecord → Prop) : IsPreorder Db (TrailGrows P) where
  refl _ := .of_eq rfl
  trans := by
    rintro db₁ db₂ db₃ ⟨first, hfirst, hP⟩ ⟨second, hsecond, hP'⟩
    refine ⟨first ++ second, by rw [hsecond, hfirst, List.append_assoc], fun a ha => ?_⟩
    exact (List.mem_append.mp ha).elim (hP a) (hP' a)

/-- What is allowed may be allowed for more than one reason. -/
theorem TrailGrows.mono {Q : AuditRecord → Prop} (h : TrailGrows P db db') (hPQ : ∀ record, P record → Q record) :
    TrailGrows Q db db' := by
  obtain ⟨new, hnew, hP⟩ := h
  exact ⟨new, hnew, fun a ha => hPQ _ (hP a ha)⟩

/-- A transaction that leaves the trail alone adds no event. -/
theorem relates_of_trail {α : Type} {x : Session α} (h : ∀ db a db', x db = .ok (a, db') → db'.auditEvents = db.auditEvents) :
    x.Relates (TrailGrows P) :=
  fun db a db' hx => .of_eq (h db a db' hx)

/-- A recorded event reports what it was given. -/
theorem recordAuditEvent_records {draws : Draws} {eventId : Uuid} {actor : AuditActor} {record : AuditRecord} {now : Time}
    (h : P record) : (recordAuditEvent settings draws eventId actor record now).Relates (TrailGrows P) := by
  intro db event db' hx
  simp only [recordAuditEvent, lastAuditEvent, Tx.bind_ok, selectFirst_ok, Tx.lift_ok, insertRow_ok, Tx.pure_ok] at hx
  obtain ⟨last, _, ⟨-, rfl⟩, hash, _, ⟨-, rfl⟩, -, _, ⟨A, hA, rfl⟩, -, rfl⟩ := hx
  refine ⟨_, hA, fun a ha => ?_⟩
  rw [List.mem_singleton.mp ha]
  exact h

/-! ### Parts that leave the trail alone -/

/-- Reading a row leaves the trail alone. -/
theorem fetch_records {α : Type} {S : Schema α} {F : Field Db (Table S)} (p : α → Bool) (absent : Fault) :
    (fetch F p absent).Relates (TrailGrows P) :=
  .of_reads fun _ _ _ h => (fetch_ok.mp h).2

/-- Selecting rows leaves the trail alone. -/
theorem selectAll_records {α : Type} {S : Schema α} {F : Field Db (Table S)} (p : α → Bool) :
    (selectAll F p : Session (List α)).Relates (TrailGrows P) :=
  .of_reads fun _ _ _ h => (selectAll_ok.mp h).2

/-- Selecting a row leaves the trail alone. -/
theorem selectOne_records {α : Type} {S : Schema α} {F : Field Db (Table S)} (several : Fault) (p : α → Bool) :
    (selectOne F several p : Session (Option α)).Relates (TrailGrows P) := by
  refine .of_reads fun _ found _ h => ?_
  cases found with
  | none => exact (selectOne_none.mp h).2
  | some row => exact (selectOne_some.mp h).2

/-- Moving an order leaves the trail alone. -/
theorem transition_records {order : Order} {target : OrderStatus} {principal : Option Uuid} {reason : String} {now : Time} :
    (transition order target principal reason now).Relates (TrailGrows P) := by
  refine relates_of_trail fun db moved db' h => ?_
  obtain ⟨-, -, O, T, -, -, rfl⟩ := transition_ok h
  rfl

/-- A message leaves the trail alone. -/
theorem enqueue_records {message : OutboxMessage} : (enqueue message).Relates (TrailGrows P) := by
  refine relates_of_trail fun db result db' h => ?_
  obtain ⟨M, -, rfl⟩ := enqueue_ok h
  rfl

/-- A receipt is posted without an event. -/
theorem applyReceipt_records {draws : Draws} {intent : Option PaymentIntent} {receipt : PaymentReceipt}
    {advice : RemittanceAdvice} {now : Time} : (applyReceipt draws intent receipt advice now).Relates (TrailGrows P) := by
  unfold applyReceipt
  split
  · refine .bind ?_ fun order => .pure _
    refine relates_of_trail fun db result db' h => ?_
    obtain ⟨order, O, T, I, J, E, M, -, -, -, -, -, -, -, -, -, -, -, rfl⟩ := settleIntent_ok h
    rfl
  · refine .bind ?_ fun _ => .pure _
    refine relates_of_trail fun db result db' h => ?_
    obtain ⟨J, E, M, -, -, -, -, rfl⟩ := quarantineFunds_ok h
    rfl
  · exact .pure none

/-- A chunk is issued without an event. -/
theorem issueChunk_records {draws : Draws} {orderId : Uuid} {chunkSize : ℤ} {now : Time} :
    (issueChunk settings draws orderId chunkSize now).Relates (TrailGrows P) := by
  unfold issueChunk
  refine .bind (fetch_records _ _) fun order => .bind (.require _ _) fun _ => .bind ?_ fun batch => .bind ?_ fun started => ?_
  · refine relates_of_trail fun db result db' h => ?_
    obtain ⟨-, -, B, -, -, rfl⟩ := ensureBatch_ok h
    rfl
  · refine relates_of_trail fun db result db' h => ?_
    obtain ⟨O, T, B, f, -, -, -, -, -, -, -, -, rfl⟩ := startIssuance_ok h
    rfl
  · obtain ⟨order, batch⟩ := started
    refine .bind (.of_reads fun _ _ _ h => (Tx.read_ok.mp h).2) fun issuedNow => .ite ?_ ?_
    · refine relates_of_trail fun db result db' h => ?_
      obtain ⟨O, T, B, M, f, -, -, -, -, -, -, -, rfl⟩ := completeBatch_ok h
      rfl
    · refine relates_of_trail fun db result db' h => ?_
      obtain ⟨added, O, T, B, C, S, M, f, -, -, -, -, -, -, -, -, -, -, -, rfl⟩ := printChunk_ok h
      rfl

/-! ### The services -/

/-- A submission records itself. -/
theorem submitOrder_records {compliance : ComplianceService} {draws : Draws} {actor : Actor} {command : SubmitOrderCommand}
    {now : Time} {key : Option String} (h : ∀ record : AuditRecord, record.action = "order.submit" → P record) :
    (submitOrder settings compliance draws actor command now key).Relates (TrailGrows P) := by
  unfold submitOrder
  refine .bind (.of_reads fun _ _ _ hread => (draftOrder_ok hread).2) fun draft => ?_
  refine .bind (.write (fun _ _ => .of_eq rfl) _ _) fun _ => .bind (.write (fun _ _ => .of_eq rfl) _ _) fun _ => ?_
  refine .bind ?_ fun order => .bind (recordAuditEvent_records (h _ rfl)) fun _ => .pure order
  exact .ite transition_records (.bind transition_records fun _ => transition_records)

/-- A decision records itself. -/
theorem decideApproval_records {draws : Draws} {actor : Actor} {command : ApprovalCommand} {now : Time}
    {key : Option String}
    (h : ∀ record : AuditRecord, record.action = "order.approval." ++ command.decision.value → P record) :
    (decideApproval settings draws actor command now key).Relates (TrailGrows P) := by
  unfold decideApproval
  refine .bind (.require _ _) fun _ => .bind (fetch_records _ _) fun order => .bind (.require _ _) fun _ => ?_
  refine .bind (.require _ _) fun _ => .bind (selectAll_records _) fun existing => .bind (.require _ _) fun _ => ?_
  refine .bind (.require _ _) fun _ => .bind (.write (fun _ _ => .of_eq rfl) _ _) fun _ => ?_
  refine .bind ?_ fun decided => .bind (recordAuditEvent_records (h _ rfl)) fun _ => .pure _
  refine relates_of_trail fun db result db' happly => ?_
  cases applyDecision_ok happly <;> rfl

/-- A cancellation records itself. -/
theorem cancelOrder_records {draws : Draws} {actor : Actor} {orderId : Uuid} {reason : String} {now : Time}
    (h : ∀ record : AuditRecord, record.action = "order.cancel" → P record) :
    (cancelOrder settings draws actor orderId reason now).Relates (TrailGrows P) := by
  unfold cancelOrder
  refine .bind (fetch_records _ _) fun order => .bind (.of_reads fun _ _ _ hread => (requireCanceller_ok.mp hread).2) fun _ => ?_
  exact .bind transition_records fun order => .bind (recordAuditEvent_records (h _ rfl)) fun _ => .pure order

/-- An ingestion records itself. -/
theorem ingestRemittance_records {draws : Draws} {advice : RemittanceAdvice} {now : Time}
    (h : ∀ record : AuditRecord, record.action = "payment.ingest" → P record) :
    (ingestRemittance settings draws advice now).Relates (TrailGrows P) := by
  unfold ingestRemittance
  refine .bind (selectOne_records _ _) fun existing => ?_
  cases existing with
  | some receipt => exact .of_reads fun _ _ _ hread => replayIngest_ok hread
  | none =>
    unfold ingestNew
    refine .bind (selectOne_records _ _) fun intent => .bind (.lift _) fun payloadHash => .bind (.lift _) fun valueDate => ?_
    refine .bind (.write (fun _ _ => .of_eq rfl) _ _) fun _ => .bind applyReceipt_records fun orderId => ?_
    exact .bind (recordAuditEvent_records (h _ rfl)) fun _ => .pure _

/-- A completed batch records itself. -/
theorem issueOrderChunk_records {draws : Draws} {orderId : Uuid} {chunkSize : ℤ} {now : Time}
    (h : ∀ record : AuditRecord, record.action = "batch.issued" → P record) :
    (issueOrderChunk settings draws orderId chunkSize now).Relates (TrailGrows P) := by
  unfold issueOrderChunk
  refine .bind issueChunk_records fun progress => .bind ?_ fun _ => .pure progress
  exact .ite (.bind (recordAuditEvent_records (h _ rfl)) fun _ => .pure ()) (.pure ())

/-- An inspection records itself. -/
theorem recordInspection_records {draws : Draws} {actor : Actor} {command : InspectionCommand} {now : Time}
    (h : ∀ record : AuditRecord, record.action = "batch.inspect" → P record) :
    (recordInspection settings draws actor command now).Relates (TrailGrows P) := by
  unfold recordInspection
  refine .bind (.of_reads fun db assessed db' hread => ?_) fun assessed => ?_
  · obtain ⟨batch, plan, accepted⟩ := assessed
    exact (assessBatch_ok hread).2.2.2
  · refine .bind (.write (fun _ _ => .of_eq rfl) _ _) fun _ => .bind ?_ fun voided => .bind ?_ fun _ => ?_
    · refine relates_of_trail fun db result db' hvoid => ?_
      obtain ⟨S, V, -, rfl⟩ := voidDefectives_ok hvoid
      rfl
    · exact .ite (.pure ()) (.write (fun _ _ => .of_eq rfl) _ _)
    · exact .bind (recordAuditEvent_records (h _ rfl)) fun _ => .pure _

/-- An activation records itself. -/
theorem activateStamps_records {draws : Draws} {actor : Actor} {serials : List String} {statuses : BatchStatuses}
    {now : Time} {key : Option String} (h : ∀ record : AuditRecord, record.action = "stamp.activate" → P record) :
    (activateStamps settings draws actor serials statuses now key).Relates (TrailGrows P) := by
  unfold activateStamps
  refine .bind (.require _ _) fun _ => .bind (.of_reads fun _ _ _ hread => (validateSerials_ok hread).2) fun wanted => ?_
  refine .bind (selectAll_records _) fun found => .bind (.require _ _) fun _ => ?_
  refine .bind (.write (fun _ _ => .of_eq rfl) _ _) fun _ => .bind (.write (fun _ _ => .of_eq rfl) _ _) fun _ => ?_
  exact .bind (recordAuditEvent_records (h _ rfl)) fun _ => .pure _

/-- Voiding records itself. -/
theorem voidStamps_records {draws : Draws} {actor : Actor} {serials : List String} {reason : String} {now : Time}
    (h : ∀ record : AuditRecord, record.action = "stamp.void" → P record) :
    (voidStamps settings draws actor serials reason now).Relates (TrailGrows P) := by
  unfold voidStamps
  refine .bind (.require _ _) fun _ => .bind (.require _ _) fun _ => ?_
  refine .bind (.of_reads fun _ _ _ hread => (validateSerials_ok hread).2) fun wanted => .bind (selectAll_records _) fun found => ?_
  refine .bind (.write (fun _ _ => .of_eq rfl) _ _) fun _ => .bind (.write (fun _ _ => .of_eq rfl) _ _) fun _ => ?_
  exact .bind (recordAuditEvent_records (h _ rfl)) fun _ => .pure _

/-- The expiry job records itself. -/
theorem expireDueStamps_records {draws : Draws} {now : Time} {limit : ℕ} {locked : List Uuid}
    (h : ∀ record : AuditRecord, record.action = "stamp.expire" → P record) :
    (expireDueStamps settings draws now limit locked).Relates (TrailGrows P) := by
  unfold expireDueStamps
  refine .bind (.of_reads fun _ _ _ hread => (selectOrdered_ok.mp hread).2) fun found => .ite (.pure 0) ?_
  refine .bind (.write (fun _ _ => .of_eq rfl) _ _) fun _ => .bind (.write (fun _ _ => .of_eq rfl) _ _) fun _ => ?_
  exact .bind (recordAuditEvent_records (h _ rfl)) fun _ => .pure _

/-- A new ledger intent records itself; no event is about an intent that was there. -/
theorem createLedgerIntent_records {draws : Draws} {request : LedgerIntentRequest} {now : Time} {actor : AuditActor}
    {result : TigerBeetleLedgerIntent}
    (h : createLedgerIntent settings draws request now actor db = .ok (result, db')) :
    TrailGrows (fun record => record.action = "tigerbeetle.intent.created" ∧
      ∀ i ∈ db.tigerbeetleLedgerIntents.rows, record.targetId ≠ i.id.str) db db' := by
  simp only [createLedgerIntent, Tx.bind_ok, Tx.lift_ok, fetch_ok, Tx.require_ok] at h
  obtain ⟨checked, _, ⟨-, rfl⟩, payment, _, ⟨-, rfl⟩, -, _, ⟨-, rfl⟩, -, _, ⟨-, rfl⟩, payloadHash, _, ⟨-, rfl⟩, existing,
    _, hfind, hrest⟩ := h
  obtain rfl := findLedgerIntent_ok hfind
  cases existing with
  | some intent =>
    obtain rfl := reuseLedgerIntent_ok hrest
    exact .of_eq rfl
  | none =>
    simp only [Tx.bind_ok] at hrest
    obtain ⟨⟨intent, created⟩, db₁, hinsert, hrest⟩ := hrest
    rcases insertLedgerIntent_ok hinsert with ⟨rfl, rfl, L, hL, rfl⟩ | ⟨rfl, rfl⟩
    · simp only [if_true, Tx.bind_ok, Tx.pure_ok] at hrest
      obtain ⟨u, _, hannounce, -, rfl⟩ := hrest
      have hannounced : (announceLedgerIntent settings draws actor (newLedgerIntent (draws.uuid 0) checked payloadHash now)
          now).Relates (TrailGrows fun record => record.action = "tigerbeetle.intent.created" ∧
            ∀ i ∈ db.tigerbeetleLedgerIntents.rows, record.targetId ≠ i.id.str) := by
        refine .bind enqueue_records fun _ => .bind (recordAuditEvent_records ⟨rfl, fun i hi heq => ?_⟩) fun _ => .pure ()
        have hclash := db.tigerbeetleLedgerIntents.not_clash_of_append L hL i hi
        simp only [tigerbeetleLedgerIntentSchema, decide_eq_false_iff_not, not_or] at hclash
        exact hclash.1 (Uuid.str_injective heq).symm
      have hrecords := hannounced _ _ _ hannounce
      exact hrecords
    · simp only [Bool.false_eq_true, if_false, Tx.pure_ok] at hrest
      obtain ⟨-, rfl⟩ := hrest
      exact .of_eq rfl

/-- A change of state of a ledger intent records itself. -/
theorem recordStateAudit_records {draws : Draws} {intentId : Uuid} {state : TigerBeetleLedgerIntentState} {action : String}
    {now : Time} {detail : JsonObject} (haction : "tigerbeetle.intent.".toList.isPrefixOf action.toList = true)
    (h : ∀ record : AuditRecord, "tigerbeetle.intent.".toList.isPrefixOf record.action.toList = true ∧
      record.targetId = intentId.str → P record) :
    (recordStateAudit settings draws intentId state action now detail).Relates (TrailGrows P) :=
  .bind (recordAuditEvent_records (h _ ⟨haction, rfl⟩)) fun _ => .pure ()

/-- Rewriting a ledger intent leaves the trail alone. -/
theorem setLedgerIntent_records {intentId : Uuid} {f : TigerBeetleLedgerIntent → TigerBeetleLedgerIntent} :
    (setLedgerIntent intentId f).Relates (TrailGrows P) := by
  unfold setLedgerIntent
  exact .write (fun _ _ => .of_eq rfl) _ _

/-- A worker's transaction records events about the intent that it locks. -/
theorem LedgerWork.records (work : LedgerWork)
    (h : ∀ record : AuditRecord, "tigerbeetle.intent.".toList.isPrefixOf record.action.toList = true ∧
      record.targetId = work.intentId.str → P record) : TrailGrows P db (work.commit settings db) := by
  cases work with
  | mark intentId clock =>
    refine Tx.Relates.commit (.bind (fetch_records _ _) fun intent => .ite (.pure none) ?_) db
    exact .bind setLedgerIntent_records fun _ => .pure _
  | confirm draws intentId transfer clock =>
    refine Tx.Relates.commit (.bind (fetch_records _ _) fun intent => .ite ?_ ?_) db
    · refine .bind setLedgerIntent_records fun _ => .bind (recordStateAudit_records (by decide) h) fun _ => .pure true
    · refine .bind (.require _ _) fun _ => .bind setLedgerIntent_records fun _ => ?_
      exact .bind (recordStateAudit_records (by decide) h) fun _ => .pure false
  | finalise draws intentId clock =>
    refine Tx.Relates.commit (.bind (fetch_records _ _) fun intent => .ite (.pure ()) ?_) db
    refine .bind (.require _ _) fun _ => .bind setLedgerIntent_records fun _ => ?_
    exact recordStateAudit_records (by decide) h
  | reject draws intentId reason clock =>
    refine Tx.Relates.commit (.bind (fetch_records _ _) fun intent => .bind (.require _ _) fun _ => ?_) db
    exact .bind setLedgerIntent_records fun _ => recordStateAudit_records (by decide) h

/-! ### Events -/

/-- What the transaction of an event may report. -/
def Event.mayRecord (s : Platform) : Event → AuditRecord → Prop
  | .submitOrder .., record => record.action = "order.submit"
  | .decideApproval _ _ command _ _, record => record.action = "order.approval." ++ command.decision.value
  | .cancelOrder .., record => record.action = "order.cancel"
  | .ingestRemittance .., record => record.action = "payment.ingest"
  | .issueChunk .., record => record.action = "batch.issued"
  | .recordInspection .., record => record.action = "batch.inspect"
  | .activateStamps .., record => record.action = "stamp.activate"
  | .voidStamps .., record => record.action = "stamp.void"
  | .expireDueStamps .., record => record.action = "stamp.expire"
  | .createLedgerIntent .., record => record.action = "tigerbeetle.intent.created" ∧
      ∀ i ∈ s.db.tigerbeetleLedgerIntents.rows, record.targetId ≠ i.id.str
  | .ledgerWork work, record =>
    "tigerbeetle.intent.".toList.isPrefixOf record.action.toList = true ∧ record.targetId = work.intentId.str
  | .recordAudit _ _ _ allowed _, record => record = allowed
  | .readStatuses _, _ | .claimBatch .., _ | .markProcessed .., _ | .markFailed .., _ => False

/-- Every transaction reports what its event may report. -/
theorem step_records (settings : Settings) (s : Platform) (e : Event) :
    TrailGrows (e.mayRecord s) s.db (step settings s e).db := by
  cases e with
  | submitOrder => exact (submitOrder_records fun _ h => h).commit s.db
  | decideApproval => exact (decideApproval_records fun _ h => h).commit s.db
  | cancelOrder => exact (cancelOrder_records fun _ h => h).commit s.db
  | ingestRemittance => exact (ingestRemittance_records fun _ h => h).commit s.db
  | issueChunk => exact (issueOrderChunk_records fun _ h => h).commit s.db
  | recordInspection => exact (recordInspection_records fun _ h => h).commit s.db
  | readStatuses => exact .of_eq rfl
  | activateStamps index draws actor now key =>
    cases ha : s.activations[index]? with
    | none =>
      simp only [step, ha]
      exact .of_eq rfl
    | some a =>
      simp only [step, ha]
      exact (activateStamps_records fun _ h => h).commit s.db
  | voidStamps => exact (voidStamps_records fun _ h => h).commit s.db
  | expireDueStamps => exact (expireDueStamps_records fun _ h => h).commit s.db
  | createLedgerIntent draws request now actor =>
    exact Tx.commit_induction (TrailGrows _ s.db) (.of_eq rfl) fun result db' h => createLedgerIntent_records h
  | ledgerWork work => exact work.records fun _ h => h
  | claimBatch =>
    refine Tx.commit_induction (TrailGrows _ s.db) (.of_eq rfl) fun result db' h => ?_
    obtain ⟨candidates, M, -, -, -, rfl⟩ := claimBatch_ok h
    exact .of_eq rfl
  | markProcessed =>
    refine Tx.commit_induction (TrailGrows _ s.db) (.of_eq rfl) fun result db' h => ?_
    obtain ⟨M, -, rfl⟩ := markProcessed_ok h
    exact .of_eq rfl
  | markFailed =>
    refine Tx.commit_induction (TrailGrows _ s.db) (.of_eq rfl) fun result db' h => ?_
    obtain ⟨M, -, -, rfl⟩ := markFailed_ok h
    exact .of_eq rfl
  | recordAudit draws eventId actor record now =>
    have hrecords : (recordAuditEvent settings draws eventId actor record now).Relates (TrailGrows fun r => r = record) :=
      recordAuditEvent_records rfl
    exact hrecords.commit s.db

end TaxStamp
