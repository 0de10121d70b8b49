import TaxStamp.Models

/-!
# The audit chain

Every service appends its audit event inside its own transaction. An event carries the
keyed hash of its predecessor's hash and of its own canonical document; the advisory lock
serialises the writers, so the predecessor is the last committed event.
-/

namespace TaxStamp

open Lib

/-- What a transaction draws from the outside: its random identifiers in the order in which
they are used, the characters of a reference, and how many identity values rolled back
writers have consumed before its audit event. -/
structure Draws where
  uuid : ℕ → Uuid
  choices : Fin 10 → Fin 32
  skipped : ℕ

/-- The predecessor hash of the first event. -/
def genesisHash : String := String.ofList (List.replicate 64 '0')

/-- The actor an event is attributed to. -/
structure AuditActor where
  principalId : Option Uuid
  subject : String
  role : String
  companyId : Option Uuid
  deriving DecidableEq, Repr

/-- What an event reports. -/
structure AuditRecord where
  action : String
  targetType : String
  targetId : String
  outcome : AuditOutcome
  beforeState : Option JsonObject := none
  afterState : Option JsonObject := none
  requestId : Option String := none
  idempotencyKey : Option String := none

/-- An optional object as a JSON value. -/
def Json.ofObject : Option JsonObject → Json
  | none => .null
  | some fields => .obj fields

/-- The document an event's hash covers. -/
def eventDocument (eventId : Uuid) (occurredAt : Time) (actor : AuditActor) (record : AuditRecord)
    (revision : String) : JsonObject :=
  [("event_id", .str eventId.str),
    ("occurred_at", .str (Time.isoformat occurredAt)),
    ("actor_principal_id", .ofOption (actor.principalId.map Uuid.str)),
    ("actor_subject", .str actor.subject),
    ("actor_role", .str actor.role),
    ("company_id", .ofOption (actor.companyId.map Uuid.str)),
    ("action", .str record.action),
    ("target_type", .str record.targetType),
    ("target_id", .str record.targetId),
    ("outcome", .str record.outcome.value),
    ("request_id", .ofOption record.requestId),
    ("idempotency_key", .ofOption record.idempotencyKey),
    ("before_state", .ofObject record.beforeState),
    ("after_state", .ofObject record.afterState),
    ("revision", .str revision)]

/-- The ASCII bytes of a text, refused when it holds another character. -/
def encodeAscii (text : String) : Except Fault Bytes :=
  if text.toList.all (·.toNat < 128) then .ok (asciiBytes text.toList) else .error .unicodeEncodeError

/-- The keyed hash that links an event to its predecessor. -/
def chainHash (crypto : Crypto) (prevHash : String) (document : JsonObject) (secret : String) :
    Except Fault String := do
  let prev ← encodeAscii prevHash
  let bytes ← canonicalBytes document
  return hexText (crypto.hmacSha256 (utf8 secret) (prev ++ [46] ++ bytes))

/-- The last event of the chain. -/
def lastAuditEvent : Session (Option AuditEvent) :=
  selectFirst Tables.auditEvents (fun _ => true) fun a b => b.seq ≤ a.seq

/-- Append one event to the chain. -/
def recordAuditEvent (settings : Settings) (draws : Draws) (eventId : Uuid) (actor : AuditActor)
    (record : AuditRecord) (occurredAt : Time) : Session AuditEvent := do
  let last ← lastAuditEvent
  let previous := (last.map AuditEvent.hash).getD genesisHash
  let hash ← Tx.lift (chainHash settings.crypto previous
    (eventDocument eventId occurredAt actor record settings.revision) settings.auditChainSecret)
  let event : AuditEvent :=
    { seq := (last.map AuditEvent.seq).getD 0 + 1 + draws.skipped
      eventId := eventId
      occurredAt := occurredAt
      actorPrincipalId := actor.principalId
      actorSubject := actor.subject
      actorRole := actor.role
      companyId := actor.companyId
      action := record.action
      targetType := record.targetType
      targetId := record.targetId
      outcome := record.outcome
      requestId := record.requestId
      idempotencyKey := record.idempotencyKey
      beforeState := record.beforeState
      afterState := record.afterState
      revision := settings.revision
      prevHash := previous
      hash := hash }
  addRow Tables.auditEvents event
  return event

/-- The actor of a stored event. -/
def AuditEvent.actor (event : AuditEvent) : AuditActor :=
  ⟨event.actorPrincipalId, event.actorSubject, event.actorRole, event.companyId⟩

/-- What a stored event reports. -/
def AuditEvent.record (event : AuditEvent) : AuditRecord where
  action := event.action
  targetType := event.targetType
  targetId := event.targetId
  outcome := event.outcome
  beforeState := event.beforeState
  afterState := event.afterState
  requestId := event.requestId
  idempotencyKey := event.idempotencyKey

/-- The document of a stored event, rebuilt from its columns. -/
def AuditEvent.document (event : AuditEvent) : JsonObject :=
  eventDocument event.eventId event.occurredAt event.actor event.record event.revision

/-- What a verification of the chain reports. -/
structure ChainVerification where
  eventsChecked : ℕ
  intact : Bool
  firstBadSeq : Option ℕ
  reason : Option String
  deriving DecidableEq, Repr

/-- The events in the order of their sequence numbers. -/
def inSeqOrder (rows : List AuditEvent) : List AuditEvent :=
  rows.insertionSort fun a b => decide (a.seq ≤ b.seq) = true

/-- Recompute the links of the events that follow a hash and report the first inconsistency. -/
def verifyEvents (crypto : Crypto) (secret : String) (previous : String) (checked : ℕ) :
    List AuditEvent → Except Fault ChainVerification
  | [] => .ok ⟨checked, true, none, none⟩
  | event :: rest =>
    if event.prevHash ≠ previous then
      .ok ⟨checked, false, some event.seq, some "prev_hash does not match predecessor"⟩
    else do
      let expected ← chainHash crypto previous event.document secret
      let same ← compareDigest expected event.hash
      if same then verifyEvents crypto secret event.hash (checked + 1) rest
      else .ok ⟨checked, false, some event.seq, some "recomputed hash does not match stored hash"⟩

/-- Recompute the whole chain. -/
def verifyAuditChain (crypto : Crypto) (secret : String) (rows : List AuditEvent) : Except Fault ChainVerification :=
  verifyEvents crypto secret genesisHash 0 (inSeqOrder rows)

/-- The event with the largest sequence number. -/
def latestEvent (rows : List AuditEvent) : Option AuditEvent :=
  (rows.insertionSort fun a b => decide (b.seq ≤ a.seq) = true).head?

/-- The event continues the chain of the rows. -/
structure Continues (settings : Settings) (rows : List AuditEvent) (event : AuditEvent) : Prop where
  seq : ((latestEvent rows).map AuditEvent.seq).getD 0 < event.seq
  prevHash : event.prevHash = ((latestEvent rows).map AuditEvent.hash).getD genesisHash
  hash : chainHash settings.crypto event.prevHash event.document settings.auditChainSecret = .ok event.hash

/-- One event has been appended to the chain. -/
def Audited (settings : Settings) (rows rows' : List AuditEvent) : Prop :=
  ∃ event, Continues settings rows event ∧ rows' = rows ++ [event]

/-- At most one event has been appended to the chain. -/
def AuditGrows (settings : Settings) (rows rows' : List AuditEvent) : Prop :=
  rows' = rows ∨ Audited settings rows rows'

/-- A recorded event is appended to the chain and nothing else changes. -/
theorem recordAuditEvent_ok {settings : Settings} {draws : Draws} {eventId : Uuid} {actor : AuditActor}
    {record : AuditRecord} {occurredAt : Time} {event : AuditEvent} {db db' : Db}
    (h : recordAuditEvent settings draws eventId actor record occurredAt db = .ok (event, db')) :
    ∃ A : Table auditEventSchema, Audited settings db.auditEvents.rows A.rows ∧
      db' = Tables.auditEvents.set A db := by
  simp only [recordAuditEvent, lastAuditEvent, Tx.bind_ok, selectFirst_ok, Tx.lift_ok, insertRow_ok,
    Tx.pure_ok, List.filter_true] at h
  obtain ⟨last, db₁, ⟨hlast, rfl⟩, hash, db₂, ⟨hhash, rfl⟩, -, db₃, ⟨A, hA, rfl⟩, rfl, rfl⟩ := h
  change last = latestEvent db.auditEvents.rows at hlast
  rw [hlast] at hhash hA
  refine ⟨A, ⟨_, ⟨?_, rfl, ?_⟩, hA⟩, rfl⟩
  · dsimp only
    omega
  · simp only [AuditEvent.document, AuditEvent.actor, AuditEvent.record]
    exact hhash

end TaxStamp
