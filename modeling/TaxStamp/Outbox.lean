import TaxStamp.Models

/-!
# The transactional outbox

External effects are recorded in the transaction that causes them and relayed later. A
worker leases due messages with `SKIP LOCKED`; the rows other transactions hold locked at
that moment are an input of the claim. Success and failure are recorded by message id.
-/

namespace TaxStamp

open Lib

/-- The outcome of recording an effect. -/
structure EnqueueResult where
  messageId : Option Uuid
  created : Bool
  deriving DecidableEq, Repr

/-- A message that has not been handled yet. -/
def OutboxMessage.pending (messageId : Uuid) (aggregateType : String) (aggregateId : Uuid)
    (eventType dedupeKey : String) (payload : JsonObject) (availableAt : Time) : OutboxMessage where
  id := messageId
  aggregateType := aggregateType
  aggregateId := aggregateId
  eventType := eventType
  dedupeKey := dedupeKey
  payload := payload
  availableAt := availableAt
  attempts := 0
  lockedBy := none
  lockedUntil := none
  processedAt := none
  deadLetteredAt := none
  lastError := none

/-- Record an outbound effect. Only the savepoint is rolled back when a constraint rejects the
message, so a duplicate dedupe key is a no-op. -/
def enqueue (message : OutboxMessage) : Session EnqueueResult := fun db =>
  match db.outboxMessages.insert message with
  | .ok messages => .ok (⟨some message.id, true⟩, { db with outboxMessages := messages })
  | .error .data => .error .dataError
  | .error .integrity =>
    (do
      let existing ← scalarOneOrNone Tables.outboxMessages fun row => row.dedupeKey = message.dedupeKey
      return ⟨existing.map OutboxMessage.id, false⟩ : Session EnqueueResult) db

/-- A message that no worker has touched. -/
structure OutboxMessage.Untouched (message : OutboxMessage) : Prop where
  attempts : message.attempts = 0
  lockedBy : message.lockedBy = none
  lockedUntil : message.lockedUntil = none
  processedAt : message.processedAt = none
  deadLetteredAt : message.deadLetteredAt = none

/-- The outbox has grown by untouched messages. -/
def OutboxGrows (rows rows' : List OutboxMessage) : Prop :=
  ∃ new, rows' = rows ++ new ∧ ∀ message ∈ new, message.Untouched

/-- An outbox grows by nothing. -/
theorem OutboxGrows.refl (rows : List OutboxMessage) : OutboxGrows rows rows := ⟨[], by simp, by simp⟩

/-- The outbox after a message was recorded: the message is appended, unless one with its identifier or its dedupe
key is there. -/
def Enqueued (rows : List OutboxMessage) (message : OutboxMessage) (rows' : List OutboxMessage) : Prop :=
  rows' = rows ++ [message] ∨
    (rows' = rows ∧ ∃ row ∈ rows, row.id = message.id ∨ row.dedupeKey = message.dedupeKey)

/-- Recording an effect appends the message or finds it recorded. -/
theorem enqueue_ok {message : OutboxMessage} {result : EnqueueResult} {db db' : Db}
    (h : enqueue message db = .ok (result, db')) :
    ∃ M : Table outboxMessageSchema, Enqueued db.outboxMessages.rows message M.rows ∧
      db' = Tables.outboxMessages.set M db := by
  unfold enqueue at h
  split at h
  · rename_i messages hinsert
    injection h with h
    injection h with _ hdb
    exact ⟨messages, .inl (Table.insert_ok.mp hinsert), hdb.symm⟩
  · contradiction
  · rename_i hinsert
    obtain ⟨row, hrow, hclash⟩ := Table.clash_of_insert_integrity hinsert rfl
    simp only [Tx.bind_ok, Tx.pure_ok] at h
    obtain ⟨existing, db₁, hselect, -, rfl⟩ := h
    refine ⟨db.outboxMessages, .inr ⟨rfl, row, hrow, by simpa [outboxMessageSchema] using hclash⟩, ?_⟩
    cases existing with
    | none => exact (selectOne_none.mp hselect).2.symm
    | some row => exact (selectOne_some.mp hselect).2.symm

/-- Recording a message that no worker has touched lets the outbox grow. -/
theorem Enqueued.grows {rows rows' : List OutboxMessage} {message : OutboxMessage}
    (h : Enqueued rows message rows') (hmessage : message.Untouched) : OutboxGrows rows rows' := by
  rcases h with rfl | ⟨rfl, -⟩
  · refine ⟨[message], rfl, ?_⟩
    intro m hm
    rw [List.mem_singleton.mp hm]
    exact hmessage
  · exact .refl _

/-- A message of a kind was recorded under a dedupe key. -/
def Announced (messageId : Uuid) (eventType dedupeKey : String) (payload : JsonObject)
    (rows rows' : List OutboxMessage) : Prop :=
  ∃ aggregateType aggregateId availableAt, Enqueued rows
    (.pending messageId aggregateType aggregateId eventType dedupeKey payload availableAt) rows'

/-- An announcement lets the outbox grow. -/
theorem Announced.grows {messageId : Uuid} {eventType dedupeKey : String} {payload : JsonObject}
    {rows rows' : List OutboxMessage} (h : Announced messageId eventType dedupeKey payload rows rows') :
    OutboxGrows rows rows' := by
  obtain ⟨aggregateType, aggregateId, availableAt, henqueued⟩ := h
  exact henqueued.grows ⟨rfl, rfl, rfl, rfl, rfl⟩

/-- A message a worker may claim: unfinished, available, and not under a running lease. -/
def OutboxMessage.due (message : OutboxMessage) (now : Time) : Bool :=
  message.processedAt.isNone && message.deadLetteredAt.isNone && message.availableAt ≤ now &&
    message.lockedUntil.all (· < now)

/-- Lease due messages, passing over the rows that are locked elsewhere. -/
def claimBatch (workerId : String) (now : Time) (leaseSeconds : ℤ) (batchSize : ℕ) (locked : List Uuid) :
    Session (List OutboxMessage) := do
  let found ← selectOrdered Tables.outboxMessages (fun message => message.due now && message.id ∉ locked)
    (fun a b => a.availableAt ≤ b.availableAt) batchSize
  let candidates := found.map OutboxMessage.id
  if candidates = [] then
    return []
  else
    let until' ← Tx.lift (Time.add now (seconds leaseSeconds))
    setRows Tables.outboxMessages (fun message => message.id ∈ candidates) fun message =>
      { message with lockedBy := some workerId, lockedUntil := some until' }
    selectAll Tables.outboxMessages fun message => message.id ∈ candidates

/-- A claim leases messages that were due, and changes nothing else. -/
theorem claimBatch_ok {workerId : String} {now : Time} {leaseSeconds : ℤ} {batchSize : ℕ} {locked : List Uuid}
    {claimed : List OutboxMessage} {db db' : Db}
    (h : claimBatch workerId now leaseSeconds batchSize locked db = .ok (claimed, db')) :
    ∃ (candidates : List Uuid) (M : Table outboxMessageSchema),
      (∀ id ∈ candidates, ∃ m ∈ db.outboxMessages.rows, m.id = id ∧ m.due now = true) ∧
      (M.rows = db.outboxMessages.rows.map fun m => if m.id ∈ candidates then
        { m with lockedBy := some workerId, lockedUntil := some (now + seconds leaseSeconds) } else m) ∧
      claimed = M.rows.filter (fun m => m.id ∈ candidates) ∧
      db' = Tables.outboxMessages.set M db := by
  simp only [claimBatch, Tx.bind_ok, selectOrdered_ok] at h
  obtain ⟨found, db₁, ⟨hfound, rfl⟩, hrest⟩ := h
  have hdue : ∀ id ∈ found.map OutboxMessage.id, ∃ m ∈ db.outboxMessages.rows, m.id = id ∧ m.due now = true := by
    intro id hid
    obtain ⟨m, hm, rfl⟩ := List.mem_map.mp hid
    rw [hfound] at hm
    obtain ⟨hmem, hp⟩ := mem_of_mem_selectOrdered hm
    rw [Bool.and_eq_true] at hp
    exact ⟨m, hmem, rfl, hp.1⟩
  split at hrest
  · rename_i hnone
    obtain ⟨rfl, rfl⟩ := Tx.pure_ok.mp hrest
    exact ⟨[], db.outboxMessages, by simp, by simp, by simp, rfl⟩
  · simp only [Tx.bind_ok, Tx.lift_ok, updateRows_ok, selectAll_ok] at hrest
    obtain ⟨until', db₂, ⟨huntil, rfl⟩, -, db₃, ⟨M, hM, rfl⟩, rfl, rfl⟩ := hrest
    obtain rfl := Time.add_ok huntil
    refine ⟨found.map OutboxMessage.id, M, hdue, ?_, rfl, rfl⟩
    simpa only [decide_eq_true_eq] using hM

/-- A message recorded as delivered. -/
def OutboxMessage.processed (message : OutboxMessage) (now : Time) : OutboxMessage :=
  { message with processedAt := some now, lockedBy := none, lockedUntil := none, lastError := none }

/-- Record a delivery. -/
def markProcessed (messageId : Uuid) (now : Time) : Session Unit :=
  setRows Tables.outboxMessages (fun message => message.id = messageId) fun message => message.processed now

/-- Recording a delivery rewrites that message only. -/
theorem markProcessed_ok {messageId : Uuid} {now : Time} {u : Unit} {db db' : Db}
    (h : markProcessed messageId now db = .ok (u, db')) :
    ∃ M : Table outboxMessageSchema,
      (M.rows = db.outboxMessages.rows.map fun m => if m.id = messageId then m.processed now else m) ∧
      db' = Tables.outboxMessages.set M db := by
  obtain ⟨M, hM, rfl⟩ := updateRows_ok.mp h
  exact ⟨M, by simpa only [decide_eq_true_eq] using hM, rfl⟩

/-- The delay before the next attempt. -/
def backoffSeconds (attempts : ℤ) : ℤ := min (2 ^ attempts.toNat) 600

/-- A message recorded as failed for the given number of times. -/
def OutboxMessage.failed (message : OutboxMessage) (attempts : ℤ) (error : String) (now availableAt : Time)
    (dead : Bool) : OutboxMessage :=
  { message with
    attempts := attempts
    lastError := some (String.ofList (error.toList.take 2000))
    lockedBy := none
    lockedUntil := none
    availableAt := availableAt
    deadLetteredAt := if dead then some now else none }

/-- Record a failed delivery of a message that was read with the given number of attempts. The
result says whether the message was dead-lettered. -/
def markFailed (messageId : Uuid) (attemptsRead : ℤ) (error : String) (now : Time) (maxAttempts : ℤ) :
    Session Bool := do
  let attempts := attemptsRead + 1
  let dead : Bool := maxAttempts ≤ attempts
  let availableAt ← Tx.lift (Time.add now (seconds (backoffSeconds attempts)))
  setRows Tables.outboxMessages (fun message => message.id = messageId) fun message =>
    message.failed attempts error now availableAt dead
  return dead

/-- Recording a failure rewrites that message only. -/
theorem markFailed_ok {messageId : Uuid} {attemptsRead : ℤ} {error : String} {now : Time} {maxAttempts : ℤ}
    {dead : Bool} {db db' : Db} (h : markFailed messageId attemptsRead error now maxAttempts db = .ok (dead, db')) :
    ∃ M : Table outboxMessageSchema,
      (M.rows = db.outboxMessages.rows.map fun m => if m.id = messageId then
        m.failed (attemptsRead + 1) error now (now + seconds (backoffSeconds (attemptsRead + 1))) dead else m) ∧
      dead = decide (maxAttempts ≤ attemptsRead + 1) ∧ db' = Tables.outboxMessages.set M db := by
  simp only [markFailed, Tx.bind_ok, Tx.lift_ok, updateRows_ok, Tx.pure_ok] at h
  obtain ⟨availableAt, db₁, ⟨havailable, rfl⟩, -, db₂, ⟨M, hM, rfl⟩, rfl, rfl⟩ := h
  obtain rfl := Time.add_ok havailable
  exact ⟨M, by simpa only [decide_eq_true_eq] using hM, rfl, rfl⟩

end TaxStamp
