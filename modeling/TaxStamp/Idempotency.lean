import TaxStamp.Lib.Run
import TaxStamp.Lib.Slots
import TaxStamp.Models

/-!
# Idempotent requests

A mutating request claims a unique key, does its work and stores its response in one
database transaction. Calls run concurrently: a lookup sees committed records only, and an
insert waits while another open transaction has inserted the same key. What the work does
to the other tables is up to the work, so its outcome is part of the event, and a call can
end at any point before its commit.
-/

namespace TaxStamp

open Lib

/-- The progress of an idempotent request. -/
inductive IdempotencyState
  | inProgress
  | completed
  deriving DecidableEq, Repr

/-- The durable outcome of a mutating request. -/
structure IdempotencyRecord where
  scope : String
  idempotencyKey : String
  principalId : Uuid
  requestHash : String
  state : IdempotencyState
  responseStatus : Option ℤ
  responseBody : Option JsonObject
  completedAt : Option Time
  expiresAt : Time

/-- The constraints of `idempotency_records`. -/
def idempotencyRecordSchema : Schema IdempotencyRecord where
  fits r := varchar 64 r.scope && varchar 128 r.idempotencyKey && varchar 64 r.requestHash &&
    r.responseStatus.all integer && r.responseBody.all (jsonb <| .obj ·)
  check _ := true
  clash a b := a.scope = b.scope ∧ a.idempotencyKey = b.idempotencyKey
  clash_comm a b := by simp only [eq_comm]

/-- A call of `run_idempotent`. -/
structure IdempotentCall where
  scope : String
  key : String
  principalId : Uuid
  payload : JsonObject
  status : ℤ

/-- The response to a call. -/
structure Response where
  status : ℤ
  body : JsonObject

/-- The stored response for an identical replay. -/
def replayResponse (existing : IdempotencyRecord) (principalId : Uuid) (requestHash : String) :
    Except Fault Response :=
  if existing.principalId ≠ principalId then
    .error (.conflict "idempotency key belongs to another principal")
  else if existing.requestHash ≠ requestHash then
    .error (.domain .idempotencyKeyReused "idempotency key was already used with a different payload" [])
  else if existing.state = .inProgress then
    .error (.conflict "an earlier request with this idempotency key is still in progress")
  else
    match existing.responseStatus, existing.responseBody with
    | some status, some body => .ok ⟨status, body⟩
    | _, _ => .error (.conflict "stored idempotent response is incomplete")

/-- The record that claims a key. -/
def newRecord (call : IdempotentCall) (requestHash : String) (expiresAt : Time) : IdempotencyRecord where
  scope := call.scope
  idempotencyKey := call.key
  principalId := call.principalId
  requestHash := requestHash
  state := .inProgress
  responseStatus := none
  responseBody := none
  completedAt := none
  expiresAt := expiresAt

/-- A record with its response. -/
def IdempotencyRecord.complete (r : IdempotencyRecord) (status : ℤ) (body : JsonObject) (now : Time) :
    IdempotencyRecord :=
  { r with state := .completed, responseStatus := some status, responseBody := some body, completedAt := some now }

variable {σ : Type}

/-- Where a call stands. The record of an open claim is visible to its own transaction only; `effect` is
what the work has written to the other tables. -/
inductive CallPhase (σ : Type)
  | idle
  | inserting (requestHash : String) (now : Time)
  | working (record : IdempotencyRecord) (now : Time)
  | worked (record : IdempotencyRecord) (now : Time) (body : JsonObject) (effect : σ → σ)
  | completed (record : IdempotencyRecord) (body : JsonObject) (effect : σ → σ)
  | committed (response : Response)
  | replayed (response : Response)
  | failed

/-- The record that a call has inserted and not yet committed. -/
def CallPhase.openRecord : CallPhase σ → Option IdempotencyRecord
  | .working record _ | .worked record _ _ _ | .completed record _ _ => some record
  | _ => none

/-- A call with where it stands. -/
structure CallState (σ : Type) where
  call : IdempotentCall
  phase : CallPhase σ

/-- The committed tables and the calls. -/
structure Idempotent (σ : Type) where
  db : σ
  records : Table idempotencyRecordSchema
  calls : List (CallState σ)

/-- No call has been made. -/
def Idempotent.initial (db : σ) : Idempotent σ := ⟨db, .empty _, []⟩

/-- The next statement of a call. -/
inductive CallEvent (σ : Type)
  | lookup (now : Time)
  | insert (ttlSeconds : ℤ)
  | work (outcome : Except Fault (JsonObject × (σ → σ)))
  | complete
  | commit
  | die

/-- A call is made, takes its next step, or another transaction commits. -/
inductive IdempotentEvent (σ : Type)
  | call (call : IdempotentCall)
  | step (index : ℕ) (e : CallEvent σ)
  | other (effect : σ → σ)

section Steps

variable (crypto : Crypto)

/-- Fingerprint the payload and look the key up. -/
def lookupKey (records : Table idempotencyRecordSchema) (call : IdempotentCall) (now : Time) : CallPhase σ :=
  match canonicalHash crypto call.payload with
  | .error _ => .failed
  | .ok requestHash =>
    match records.rows.filter fun r => r.scope = call.scope && r.idempotencyKey = call.key with
    | [] => .inserting requestHash now
    | [existing] =>
      match replayResponse existing call.principalId requestHash with
      | .ok response => .replayed response
      | .error _ => .failed
    | _ :: _ :: _ => .failed

/-- The key is claimed by an open transaction. -/
def Idempotent.busy (s : Idempotent σ) (call : IdempotentCall) : Prop :=
  ∃ c ∈ s.calls, c.phase.openRecord.isSome = true ∧ c.call.scope = call.scope ∧ c.call.key = call.key

instance (s : Idempotent σ) (call : IdempotentCall) : Decidable (s.busy call) :=
  inferInstanceAs (Decidable (∃ c ∈ s.calls, _ ∧ _ ∧ _))

/-- Insert the claim: wait while the key is busy, fail when it has been taken. -/
def insertClaim (s : Idempotent σ) (call : IdempotentCall) (requestHash : String) (now : Time) (ttlSeconds : ℤ) :
    CallPhase σ :=
  match Time.add now (seconds ttlSeconds) with
  | .error _ => .failed
  | .ok expiresAt =>
    if s.busy call then .inserting requestHash now
    else
      match s.records.insert (newRecord call requestHash expiresAt) with
      | .ok _ => .working (newRecord call requestHash expiresAt) now
      | .error _ => .failed

/-- Store the response in the claimed record. -/
def completeClaim (call : IdempotentCall) (record : IdempotencyRecord) (now : Time) (body : JsonObject)
    (effect : σ → σ) : CallPhase σ :=
  if idempotencyRecordSchema.fits (record.complete call.status body now) then
    .completed (record.complete call.status body now) body effect
  else .failed

/-- A statement of a call before its commit. -/
def advance (s : Idempotent σ) (c : CallState σ) : CallEvent σ → CallPhase σ
  | .lookup now =>
    match c.phase with
    | .idle => lookupKey crypto s.records c.call now
    | phase => phase
  | .insert ttlSeconds =>
    match c.phase with
    | .inserting requestHash now => insertClaim s c.call requestHash now ttlSeconds
    | phase => phase
  | .work outcome =>
    match c.phase, outcome with
    | .working record now, .ok (body, effect) => .worked record now body effect
    | .working _ _, .error _ => .failed
    | phase, _ => phase
  | .complete =>
    match c.phase with
    | .worked record now body effect => completeClaim c.call record now body effect
    | phase => phase
  | .commit => c.phase
  | .die =>
    match c.phase with
    | .committed response => .committed response
    | .replayed response => .replayed response
    | _ => .failed

/-- A commit publishes the record and the effect of the work together. -/
def Idempotent.commit (s : Idempotent σ) (index : ℕ) (c : CallState σ) (record : IdempotencyRecord)
    (body : JsonObject) (effect : σ → σ) : Idempotent σ :=
  match s.records.insert record with
  | .ok records => ⟨effect s.db, records, s.calls.set index ⟨c.call, .committed ⟨c.call.status, body⟩⟩⟩
  | .error _ => { s with calls := s.calls.set index ⟨c.call, .failed⟩ }

/-- The calls and tables after an event. -/
def idempotentStep (s : Idempotent σ) : IdempotentEvent σ → Idempotent σ
  | .call call => { s with calls := s.calls ++ [⟨call, .idle⟩] }
  | .other effect => { s with db := effect s.db }
  | .step index e =>
    match s.calls[index]? with
    | none => s
    | some c =>
      match e, c.phase with
      | .commit, .completed record body effect => s.commit index c record body effect
      | e, _ => { s with calls := s.calls.set index ⟨c.call, advance crypto s c e⟩ }

end Steps

/-- The record claims the key for the call. -/
structure Claims (crypto : Crypto) (r : IdempotencyRecord) (call : IdempotentCall) : Prop where
  scope : r.scope = call.scope
  key : r.idempotencyKey = call.key
  principal : r.principalId = call.principalId
  fingerprint : canonicalHash crypto call.payload = .ok r.requestHash

/-- The record holds the response to the call. -/
structure Answers (crypto : Crypto) (r : IdempotencyRecord) (call : IdempotentCall) (response : Response) : Prop
    extends Claims crypto r call where
  state : r.state = .completed
  status : r.responseStatus = some response.status
  body : r.responseBody = some response.body

/-- What is known about a call from where it stands. -/
def CallState.Valid (crypto : Crypto) (records : List IdempotencyRecord) (c : CallState σ) : Prop :=
  match c.phase with
  | .inserting requestHash _ => canonicalHash crypto c.call.payload = .ok requestHash
  | .working record _ | .worked record _ _ _ => Claims crypto record c.call
  | .completed record body _ => Answers crypto record c.call ⟨c.call.status, body⟩
  | .committed response | .replayed response => ∃ r ∈ records, Answers crypto r c.call response
  | .idle | .failed => True

/-- A stored response is replayed only to the principal and the payload it was given to. -/
theorem replayResponse_ok {crypto : Crypto} {r : IdempotencyRecord} {call : IdempotentCall} {requestHash : String}
    {response : Response} (hscope : r.scope = call.scope) (hkey : r.idempotencyKey = call.key)
    (hhash : canonicalHash crypto call.payload = .ok requestHash)
    (h : replayResponse r call.principalId requestHash = .ok response) : Answers crypto r call response := by
  unfold replayResponse at h
  split at h
  · contradiction
  · rename_i hprincipal
    split at h
    · contradiction
    · rename_i hrequest
      split at h
      · contradiction
      · rename_i hstate
        split at h
        · rename_i status body hstatus hbody
          injection h with h
          subst h
          rw [not_not] at hprincipal hrequest
          refine ⟨⟨hscope, hkey, hprincipal, ?_⟩, ?_, hstatus, hbody⟩
          · rw [hhash, hrequest]
          · cases hs : r.state with
            | inProgress => exact absurd hs hstate
            | completed => rfl
        · contradiction

/-- A lookup fails, finds the key free, or replays the stored response. -/
theorem lookupKey_cases (crypto : Crypto) (records : Table idempotencyRecordSchema) (call : IdempotentCall)
    (now : Time) :
    (lookupKey crypto records call now : CallPhase σ) = .failed ∨
      (∃ requestHash, (lookupKey crypto records call now : CallPhase σ) = .inserting requestHash now ∧
        canonicalHash crypto call.payload = .ok requestHash) ∨
      ∃ response, (lookupKey crypto records call now : CallPhase σ) = .replayed response ∧
        ∃ r ∈ records.rows, Answers crypto r call response := by
  unfold lookupKey
  split
  · exact .inl rfl
  · rename_i requestHash hhash
    split
    · exact .inr (.inl ⟨requestHash, rfl, hhash⟩)
    · rename_i existing hfound
      obtain ⟨hmem, hkey⟩ := mem_of_filter_eq_singleton hfound
      simp only [Bool.and_eq_true, decide_eq_true_eq] at hkey
      split
      · rename_i response hreplay
        exact .inr (.inr ⟨response, rfl, existing, hmem, replayResponse_ok hkey.1 hkey.2 hhash hreplay⟩)
      · exact .inl rfl
    · exact .inl rfl

/-- An insert fails, waits, or claims a key that neither a record nor an open transaction has. -/
theorem insertClaim_cases (s : Idempotent σ) (call : IdempotentCall) (requestHash : String) (now : Time)
    (ttlSeconds : ℤ) :
    insertClaim s call requestHash now ttlSeconds = .failed ∨
      insertClaim s call requestHash now ttlSeconds = .inserting requestHash now ∨
      ∃ expiresAt, insertClaim s call requestHash now ttlSeconds = .working (newRecord call requestHash expiresAt) now ∧
        ¬s.busy call ∧ ∀ r ∈ s.records.rows, ¬(r.scope = call.scope ∧ r.idempotencyKey = call.key) := by
  unfold insertClaim
  split
  · exact .inl rfl
  · rename_i expiresAt htime
    split
    · exact .inr (.inl rfl)
    · rename_i hfree
      split
      · rename_i records hinsert
        refine .inr (.inr ⟨expiresAt, rfl, hfree, fun r hr hsame => ?_⟩)
        have hclash := Table.not_clash_of_append s.records records (Table.insert_ok.mp hinsert) r hr
        simp [idempotencyRecordSchema, newRecord, hsame] at hclash
      · exact .inl rfl

/-- Storing the response fails or completes the record. -/
theorem completeClaim_cases (call : IdempotentCall) (record : IdempotencyRecord) (now : Time) (body : JsonObject)
    (effect : σ → σ) :
    completeClaim call record now body effect = .failed ∨
      completeClaim call record now body effect = .completed (record.complete call.status body now) body effect := by
  unfold completeClaim
  split
  · exact .inr rfl
  · exact .inl rfl

/-- More records take nothing away from what is known about a call. -/
theorem CallState.Valid.mono {crypto : Crypto} {records records' : List IdempotencyRecord} {c : CallState σ}
    (h : c.Valid crypto records) (hsub : records ⊆ records') : c.Valid crypto records' := by
  unfold CallState.Valid at h ⊢
  split at h <;> first
    | exact h
    | exact h.imp fun r hr => ⟨hsub hr.1, hr.2⟩

/-- A statement before the commit keeps what is known about its call. -/
theorem CallState.Valid.advance {crypto : Crypto} {s : Idempotent σ} {c : CallState σ} (e : CallEvent σ)
    (h : c.Valid crypto s.records.rows) :
    CallState.Valid crypto s.records.rows ⟨c.call, TaxStamp.advance crypto s c e⟩ := by
  obtain ⟨call, phase⟩ := c
  cases e with
  | lookup now =>
    cases phase with
    | idle =>
      rcases lookupKey_cases (σ := σ) crypto s.records call now with hphase | ⟨requestHash, hphase, hhash⟩ |
        ⟨response, hphase, hanswers⟩ <;> simp only [TaxStamp.advance, CallState.Valid, hphase]
      · exact hhash
      · exact hanswers
    | _ => exact h
  | insert ttlSeconds =>
    cases phase with
    | inserting requestHash now =>
      rcases insertClaim_cases s call requestHash now ttlSeconds with hphase | hphase | ⟨expiresAt, hphase, -⟩ <;>
        simp only [TaxStamp.advance, CallState.Valid, hphase]
      · exact h
      · exact ⟨rfl, rfl, rfl, h⟩
    | _ => exact h
  | work outcome =>
    cases phase with
    | working record now =>
      cases outcome with
      | error fault => trivial
      | ok result => exact h
    | _ => exact h
  | complete =>
    cases phase with
    | worked record now body effect =>
      have hclaims : Claims crypto record call := h
      rcases completeClaim_cases call record now body effect with hphase | hphase <;>
        simp only [TaxStamp.advance, CallState.Valid, hphase]
      exact ⟨⟨hclaims.scope, hclaims.key, hclaims.principal, hclaims.fingerprint⟩, rfl, rfl, rfl⟩
    | _ => exact h
  | commit => exact h
  | die =>
    cases phase with
    | committed response => exact h
    | replayed response => exact h
    | _ => trivial

/-- A call holds a key from its insert on; the insert found the key free. -/
theorem advance_open {crypto : Crypto} {s : Idempotent σ} {c : CallState σ} {e : CallEvent σ}
    (h : (advance crypto s c e).openRecord.isSome = true) :
    c.phase.openRecord.isSome = true ∨
      (¬s.busy c.call ∧ ∀ r ∈ s.records.rows, ¬(r.scope = c.call.scope ∧ r.idempotencyKey = c.call.key)) := by
  obtain ⟨call, phase⟩ := c
  cases e with
  | lookup now =>
    cases phase with
    | idle =>
      rcases lookupKey_cases (σ := σ) crypto s.records call now with hphase | ⟨requestHash, hphase, hhash⟩ |
        ⟨response, hphase, hanswers⟩ <;> simp only [advance, hphase] at h <;> cases h
    | _ => exact .inl h
  | insert ttlSeconds =>
    cases phase with
    | inserting requestHash now =>
      rcases insertClaim_cases s call requestHash now ttlSeconds with hphase | hphase | ⟨expiresAt, -, hfree⟩
      · simp only [advance, hphase] at h
        cases h
      · simp only [advance, hphase] at h
        cases h
      · exact .inr hfree
    | _ => exact .inl h
  | work outcome =>
    cases phase with
    | working record now => exact .inl rfl
    | _ => exact .inl h
  | complete =>
    cases phase with
    | worked record now body effect => exact .inl rfl
    | _ => exact .inl h
  | commit => exact .inl h
  | die => cases phase <;> cases h

/-- No statement before the commit makes or unmakes a commit. -/
theorem advance_committed {crypto : Crypto} {s : Idempotent σ} {c : CallState σ} {e : CallEvent σ}
    {response : Response} : advance crypto s c e = .committed response ↔ c.phase = .committed response := by
  obtain ⟨call, phase⟩ := c
  cases e with
  | lookup now =>
    cases phase with
    | idle =>
      rcases lookupKey_cases (σ := σ) crypto s.records call now with hphase | ⟨requestHash, hphase, hhash⟩ |
        ⟨response, hphase, hanswers⟩ <;> simp [advance, hphase]
    | _ => exact Iff.rfl
  | insert ttlSeconds =>
    cases phase with
    | inserting requestHash now =>
      rcases insertClaim_cases s call requestHash now ttlSeconds with hphase | hphase | ⟨expiresAt, hphase, -⟩ <;>
        simp [advance, hphase]
    | _ => exact Iff.rfl
  | work outcome =>
    cases phase with
    | working record now => cases outcome <;> simp [advance]
    | _ => exact Iff.rfl
  | complete =>
    cases phase with
    | worked record now body effect =>
      rcases completeClaim_cases call record now body effect with hphase | hphase <;> simp [advance, hphase]
    | _ => exact Iff.rfl
  | commit => exact Iff.rfl
  | die => cases phase <;> simp [advance]

/-- The state of the calls and the records: every record is complete and was written by the one call that
committed under its key, and at most one open transaction holds a key that no record has. -/
structure Idempotent.Coherent (crypto : Crypto) (s : Idempotent σ) : Prop where
  valid : ∀ (i : ℕ) (c : CallState σ), s.calls[i]? = some c → c.Valid crypto s.records.rows
  origin : ∀ r ∈ s.records.rows, ∃ (i : ℕ) (c : CallState σ) (response : Response), s.calls[i]? = some c ∧
    c.phase = .committed response ∧ Answers crypto r c.call response
  free : ∀ (i : ℕ) (c : CallState σ), s.calls[i]? = some c → c.phase.openRecord.isSome = true →
    ∀ r ∈ s.records.rows, ¬(r.scope = c.call.scope ∧ r.idempotencyKey = c.call.key)
  exclusive : ∀ (i j : ℕ) (c c' : CallState σ), s.calls[i]? = some c → s.calls[j]? = some c' →
    c.phase.openRecord.isSome = true → c'.phase.openRecord.isSome = true → c.call.scope = c'.call.scope →
    c.call.key = c'.call.key → i = j
  once : ∀ (i j : ℕ) (c c' : CallState σ) (response response' : Response), s.calls[i]? = some c →
    s.calls[j]? = some c' → c.phase = .committed response → c'.phase = .committed response' →
    c.call.scope = c'.call.scope → c.call.key = c'.call.key → i = j

/-- No call has been made. -/
theorem Idempotent.Coherent.initial (crypto : Crypto) (db : σ) : (Idempotent.initial db).Coherent crypto := by
  have hnone : ∀ {i : ℕ} {c : CallState σ}, (Idempotent.initial db).calls[i]? ≠ some c := by
    intro i c
    simp [Idempotent.initial]
  constructor
  · intro i c hc
    exact absurd hc hnone
  · intro r hr
    cases hr
  · intro i c hc
    exact absurd hc hnone
  · intro i j c c' hc
    exact absurd hc hnone
  · intro i j c c' response response' hc
    exact absurd hc hnone

section Preservation

variable {crypto : Crypto} {s : Idempotent σ} (h : s.Coherent crypto)
include h

/-- A new call holds nothing. -/
theorem Idempotent.Coherent.call (call : IdempotentCall) :
    ({ s with calls := s.calls ++ [⟨call, .idle⟩] } : Idempotent σ).Coherent crypto := by
  have hcases : ∀ {i : ℕ} {c : CallState σ}, (s.calls ++ [⟨call, .idle⟩])[i]? = some c →
      s.calls[i]? = some c ∨ c = ⟨call, .idle⟩ := by
    intro i c hc
    rw [List.getElem?_append] at hc
    split at hc
    · exact .inl hc
    · exact .inr (List.mem_singleton.mp (List.mem_of_getElem? hc))
  have hold : ∀ {i : ℕ} {c : CallState σ}, (s.calls ++ [⟨call, .idle⟩])[i]? = some c → c.phase ≠ .idle →
      s.calls[i]? = some c := by
    intro i c hc hphase
    rcases hcases hc with hold | rfl
    · exact hold
    · exact absurd rfl hphase
  have hopen : ∀ {i : ℕ} {c : CallState σ}, (s.calls ++ [⟨call, .idle⟩])[i]? = some c →
      c.phase.openRecord.isSome = true → s.calls[i]? = some c := by
    intro i c hc hphase
    refine hold hc fun hidle => ?_
    rw [hidle] at hphase
    cases hphase
  have hcommitted : ∀ {i : ℕ} {c : CallState σ} {response : Response}, (s.calls ++ [⟨call, .idle⟩])[i]? = some c →
      c.phase = .committed response → s.calls[i]? = some c := by
    intro i c response hc hphase
    refine hold hc fun hidle => ?_
    rw [hidle] at hphase
    cases hphase
  constructor
  · intro i c hc
    rcases hcases hc with hold | rfl
    · exact h.valid i c hold
    · trivial
  · intro r hr
    obtain ⟨i, c, response, hc, hrest⟩ := h.origin r hr
    refine ⟨i, c, response, ?_, hrest⟩
    change (s.calls ++ _)[i]? = some c
    rw [List.getElem?_append_left (List.getElem?_eq_some_iff.mp hc).1]
    exact hc
  · intro i c hc hphase
    exact h.free i c (hopen hc hphase) hphase
  · intro i j c c' hc hc' hphase hphase'
    exact h.exclusive i j c c' (hopen hc hphase) (hopen hc' hphase') hphase hphase'
  · intro i j c c' response response' hc hc' hphase hphase'
    exact h.once i j c c' response response' (hcommitted hc hphase) (hcommitted hc' hphase') hphase hphase'

variable {index : ℕ} {c : CallState σ} (hc : s.calls[index]? = some c)
include hc

/-- A statement before the commit keeps the calls coherent. -/
theorem Idempotent.Coherent.advance (e : CallEvent σ) :
    ({ s with calls := s.calls.set index ⟨c.call, TaxStamp.advance crypto s c e⟩ } : Idempotent σ).Coherent crypto := by
  have hslots : ∀ {j : ℕ} {b : CallState σ},
      (s.calls.set index ⟨c.call, TaxStamp.advance crypto s c e⟩)[j]? = some b ↔
        (j = index ∧ b = ⟨c.call, TaxStamp.advance crypto s c e⟩) ∨ (j ≠ index ∧ s.calls[j]? = some b) :=
    getElem?_set_iff hc
  -- Whoever holds the key against the new holder held it before the insert.
  have hbusy : ∀ {j : ℕ} {b : CallState σ}, j ≠ index → s.calls[j]? = some b → b.phase.openRecord.isSome = true →
      (TaxStamp.advance crypto s c e).openRecord.isSome = true → b.call.scope = c.call.scope →
      b.call.key = c.call.key → False := by
    intro j b hj hb hopen hnew hscope hkey
    rcases advance_open hnew with hold | ⟨hfree, -⟩
    · exact hj (h.exclusive j index b c hb hc hopen hold hscope hkey)
    · exact hfree ⟨b, List.mem_of_getElem? hb, hopen, hscope, hkey⟩
  constructor
  · intro j b hb
    rcases hslots.mp hb with ⟨rfl, rfl⟩ | ⟨-, hold⟩
    · exact (h.valid _ c hc).advance e
    · exact h.valid j b hold
  · intro r hr
    obtain ⟨j, b, response, hb, hcommitted, hanswers⟩ := h.origin r hr
    by_cases hj : j = index
    · subst hj
      obtain rfl : c = b := Option.some.inj (hc.symm.trans hb)
      exact ⟨j, _, response, hslots.mpr (.inl ⟨rfl, rfl⟩), advance_committed.mpr hcommitted, hanswers⟩
    · exact ⟨j, b, response, hslots.mpr (.inr ⟨hj, hb⟩), hcommitted, hanswers⟩
  · intro j b hb hopen
    rcases hslots.mp hb with ⟨rfl, rfl⟩ | ⟨-, hold⟩
    · rcases advance_open hopen with hold | ⟨-, hfree⟩
      · exact h.free _ c hc hold
      · exact hfree
    · exact h.free j b hold hopen
  · intro j k b b' hb hb' hopen hopen' hscope hkey
    rcases hslots.mp hb with ⟨rfl, rfl⟩ | ⟨hj, hold⟩ <;> rcases hslots.mp hb' with ⟨rfl, rfl⟩ | ⟨hk, hold'⟩
    · rfl
    · exact (hbusy hk hold' hopen' hopen hscope.symm hkey.symm).elim
    · exact (hbusy hj hold hopen hopen' hscope hkey).elim
    · exact h.exclusive j k b b' hold hold' hopen hopen' hscope hkey
  · have hbefore : ∀ {j : ℕ} {b : CallState σ} {response : Response},
        (s.calls.set index ⟨c.call, TaxStamp.advance crypto s c e⟩)[j]? = some b → b.phase = .committed response →
        ∃ old : CallState σ, s.calls[j]? = some old ∧ old.phase = .committed response ∧ old.call = b.call := by
      intro j b response hb hphase
      rcases hslots.mp hb with ⟨rfl, rfl⟩ | ⟨-, hold⟩
      · exact ⟨c, hc, advance_committed.mp hphase, rfl⟩
      · exact ⟨b, hold, hphase, rfl⟩
    intro j k b b' response response' hb hb' hphase hphase' hscope hkey
    obtain ⟨old, hold, hdone, hcall⟩ := hbefore hb hphase
    obtain ⟨old', hold', hdone', hcall'⟩ := hbefore hb' hphase'
    rw [← hcall, ← hcall'] at hscope hkey
    exact h.once j k old old' response response' hold hold' hdone hdone' hscope hkey

variable {record : IdempotencyRecord} {body : JsonObject} {effect : σ → σ}
  (hphase : c.phase = .completed record body effect)
include hphase

/-- A commit publishes the only record under its key. -/
theorem Idempotent.Coherent.commit : (s.commit index c record body effect).Coherent crypto := by
  have hopen : c.phase.openRecord.isSome = true := by
    rw [hphase]
    rfl
  have hanswers : Answers crypto record c.call ⟨c.call.status, body⟩ := by
    have hvalid := h.valid index c hc
    unfold CallState.Valid at hvalid
    rw [hphase] at hvalid
    exact hvalid
  unfold Idempotent.commit
  split
  · rename_i records hinsert
    have hrows := Table.insert_ok.mp hinsert
    have hslots : ∀ {j : ℕ} {b : CallState σ},
        (s.calls.set index ⟨c.call, .committed ⟨c.call.status, body⟩⟩)[j]? = some b ↔
          (j = index ∧ b = ⟨c.call, .committed ⟨c.call.status, body⟩⟩) ∨ (j ≠ index ∧ s.calls[j]? = some b) :=
      getElem?_set_iff hc
    -- An earlier commit under the key left a record, which the insert would have met.
    have hfirst : ∀ {j : ℕ} {b : CallState σ} {response : Response}, s.calls[j]? = some b →
        b.phase = .committed response → b.call.scope = c.call.scope → b.call.key = c.call.key → False := by
      intro j b response hb hdone hscope hkey
      have hvalid := h.valid j b hb
      unfold CallState.Valid at hvalid
      rw [hdone] at hvalid
      obtain ⟨r, hr, hresponse⟩ := hvalid
      exact h.free index c hc hopen r hr ⟨hresponse.scope.trans hscope, hresponse.key.trans hkey⟩
    constructor
    · intro j b hb
      change CallState.Valid crypto records.rows b
      rcases hslots.mp hb with ⟨rfl, rfl⟩ | ⟨-, hold⟩
      · refine ⟨record, ?_, hanswers⟩
        rw [hrows]
        exact List.mem_append_right _ (List.mem_singleton.mpr rfl)
      · exact (h.valid j b hold).mono (hrows ▸ List.subset_append_left _ _)
    · intro r hr
      change r ∈ records.rows at hr
      rw [hrows, List.mem_append, List.mem_singleton] at hr
      rcases hr with hr | rfl
      · obtain ⟨j, b, response, hb, hcommitted, hrest⟩ := h.origin r hr
        have hj : j ≠ index := by
          rintro rfl
          obtain rfl : c = b := Option.some.inj (hc.symm.trans hb)
          rw [hphase] at hcommitted
          cases hcommitted
        exact ⟨j, b, response, hslots.mpr (.inr ⟨hj, hb⟩), hcommitted, hrest⟩
      · exact ⟨index, _, _, hslots.mpr (.inl ⟨rfl, rfl⟩), rfl, hanswers⟩
    · intro j b hb hbopen r hr
      change r ∈ records.rows at hr
      rw [hrows, List.mem_append, List.mem_singleton] at hr
      rcases hslots.mp hb with ⟨rfl, rfl⟩ | ⟨hj, hold⟩
      · cases hbopen
      · rcases hr with hr | rfl
        · exact h.free j b hold hbopen r hr
        · rintro ⟨hscope, hkey⟩
          exact hj (h.exclusive j index b c hold hc hbopen hopen (hscope.symm.trans hanswers.scope)
            (hkey.symm.trans hanswers.key))
    · intro j k b b' hb hb' hbopen hbopen'
      rcases hslots.mp hb with ⟨rfl, rfl⟩ | ⟨-, hold⟩
      · cases hbopen
      · rcases hslots.mp hb' with ⟨rfl, rfl⟩ | ⟨-, hold'⟩
        · cases hbopen'
        · exact h.exclusive j k b b' hold hold' hbopen hbopen'
    · intro j k b b' response response' hb hb' hdone hdone' hscope hkey
      rcases hslots.mp hb with ⟨rfl, rfl⟩ | ⟨-, hold⟩ <;> rcases hslots.mp hb' with ⟨rfl, rfl⟩ | ⟨-, hold'⟩
      · rfl
      · exact (hfirst hold' hdone' hscope.symm hkey.symm).elim
      · exact (hfirst hold hdone hscope hkey).elim
      · exact h.once j k b b' response response' hold hold' hdone hdone' hscope hkey
  · have hdie := h.advance hc .die
    have hfailed : TaxStamp.advance crypto s c .die = .failed := by
      simp only [TaxStamp.advance, hphase]
    rw [hfailed] at hdie
    exact hdie

end Preservation

section Runs

variable (crypto : Crypto)

/-- An event of a call has no call to act on, is a statement before the commit, or commits. -/
theorem idempotentStep_cases (s : Idempotent σ) (index : ℕ) (e : CallEvent σ) :
    idempotentStep crypto s (.step index e) = s ∨
      ∃ c, s.calls[index]? = some c ∧
        (idempotentStep crypto s (.step index e) =
            { s with calls := s.calls.set index ⟨c.call, advance crypto s c e⟩ } ∨
          ∃ record body effect, c.phase = .completed record body effect ∧
            idempotentStep crypto s (.step index e) = s.commit index c record body effect) := by
  simp only [idempotentStep]
  split
  · exact .inl rfl
  · rename_i c hc
    refine .inr ⟨c, hc, ?_⟩
    split
    · rename_i record body effect hphase
      exact .inr ⟨record, body, effect, hphase, rfl⟩
    · exact .inl rfl

/-- Every event keeps the calls coherent. -/
theorem Idempotent.Coherent.step {crypto : Crypto} {s : Idempotent σ} (h : s.Coherent crypto) (e : IdempotentEvent σ) :
    (idempotentStep crypto s e).Coherent crypto := by
  cases e with
  | call call => exact h.call call
  | other effect => exact ⟨h.valid, h.origin, h.free, h.exclusive, h.once⟩
  | step index e =>
    rcases idempotentStep_cases crypto s index e with hsame | ⟨c, hc, hadvance | ⟨record, body, effect, hphase, hcommit⟩⟩
    · rw [hsame]
      exact h
    · rw [hadvance]
      exact h.advance hc e
    · rw [hcommit]
      exact h.commit hc hphase

/-- The calls stay coherent over every interleaving. -/
theorem coherent_run (db : σ) (events : List (IdempotentEvent σ)) :
    (run (idempotentStep crypto) (.initial db) events).Coherent crypto :=
  run_invariant (Idempotent.Coherent crypto) (fun _ e h => h.step e) _ (.initial crypto db) events

/-- A commit that writes its record ends in the committed phase; one that cannot writes nothing. -/
theorem Idempotent.commit_cases (s : Idempotent σ) (index : ℕ) (c : CallState σ) (record : IdempotencyRecord)
    (body : JsonObject) (effect : σ → σ) :
    (s.commit index c record body effect).calls = s.calls.set index ⟨c.call, .committed ⟨c.call.status, body⟩⟩ ∨
      ((s.commit index c record body effect).db = s.db ∧
        (s.commit index c record body effect).records = s.records ∧
        (s.commit index c record body effect).calls = s.calls.set index ⟨c.call, .failed⟩) := by
  unfold Idempotent.commit
  split
  · exact .inl rfl
  · exact .inr ⟨rfl, rfl, rfl⟩

/-- A committed call stays committed. -/
theorem committed_step {s : Idempotent σ} {i : ℕ} {response : Response} (e : IdempotentEvent σ)
    (h : ∃ c, s.calls[i]? = some c ∧ c.phase = .committed response) :
    ∃ c, (idempotentStep crypto s e).calls[i]? = some c ∧ c.phase = .committed response := by
  obtain ⟨c, hc, hphase⟩ := h
  cases e with
  | call call =>
    refine ⟨c, ?_, hphase⟩
    change (s.calls ++ _)[i]? = some c
    rw [List.getElem?_append_left (List.getElem?_eq_some_iff.mp hc).1]
    exact hc
  | other effect => exact ⟨c, hc, hphase⟩
  | step index e =>
    rcases idempotentStep_cases crypto s index e with hsame | ⟨b, hb, hstep⟩
    · rw [hsame]
      exact ⟨c, hc, hphase⟩
    · by_cases hi : i = index
      · subst hi
        obtain rfl : c = b := Option.some.inj (hc.symm.trans hb)
        rcases hstep with hadvance | ⟨record, body, effect, hcompleted, -⟩
        · rw [hadvance]
          exact ⟨_, (getElem?_set_iff hc).mpr (.inl ⟨rfl, rfl⟩), advance_committed.mpr hphase⟩
        · rw [hcompleted] at hphase
          cases hphase
      · have hother : ∀ b' : CallState σ, (s.calls.set index b')[i]? = some c := fun b' =>
          (getElem?_set_iff hb).mpr (.inr ⟨hi, hc⟩)
        refine ⟨c, ?_, hphase⟩
        rcases hstep with hadvance | ⟨record, body, effect, -, hcommit⟩
        · rw [hadvance]
          exact hother _
        · rw [hcommit]
          rcases s.commit_cases index b record body effect with hcalls | ⟨-, -, hcalls⟩ <;>
          · rw [hcalls]
            exact hother _

/-- A committed call stays committed in every continuation. -/
theorem committed_run {s : Idempotent σ} {i : ℕ} {response : Response} (events : List (IdempotentEvent σ))
    (h : ∃ c, s.calls[i]? = some c ∧ c.phase = .committed response) :
    ∃ c, (run (idempotentStep crypto) s events).calls[i]? = some c ∧ c.phase = .committed response :=
  run_invariant (fun s => ∃ c, s.calls[i]? = some c ∧ c.phase = .committed response)
    (fun _ e h => committed_step crypto e h) s h events

/-- A call's statement changes a table only by committing the call. -/
theorem tables_step (s : Idempotent σ) (i : ℕ) (e : CallEvent σ) :
    ((idempotentStep crypto s (.step i e)).db = s.db ∧
        (idempotentStep crypto s (.step i e)).records = s.records) ∨
      ∃ c response, (idempotentStep crypto s (.step i e)).calls[i]? = some c ∧ c.phase = .committed response := by
  rcases idempotentStep_cases crypto s i e with hsame | ⟨c, hc, hadvance | ⟨record, body, effect, -, hcommit⟩⟩
  · rw [hsame]
    exact .inl ⟨rfl, rfl⟩
  · rw [hadvance]
    exact .inl ⟨rfl, rfl⟩
  · rw [hcommit]
    rcases s.commit_cases i c record body effect with hcalls | ⟨hdb, hrecords, -⟩
    · refine .inr ⟨⟨c.call, .committed ⟨c.call.status, body⟩⟩, ⟨c.call.status, body⟩, ?_, rfl⟩
      rw [hcalls]
      exact (getElem?_set_iff hc).mpr (.inl ⟨rfl, rfl⟩)
    · exact .inl ⟨hdb, hrecords⟩

end Runs

/-- The response with which a call has returned. -/
def CallPhase.returned : CallPhase σ → Option Response
  | .committed response | .replayed response => some response
  | _ => none

/-- A call that has returned was answered by a record of its own key. -/
theorem CallState.Valid.returned {crypto : Crypto} {records : List IdempotencyRecord} {c : CallState σ}
    {response : Response} (h : c.Valid crypto records) (hreturned : c.phase.returned = some response) :
    ∃ r ∈ records, Answers crypto r c.call response := by
  obtain ⟨call, phase⟩ := c
  cases phase with
  | committed result =>
    obtain rfl : result = response := Option.some.inj hreturned
    exact h
  | replayed result =>
    obtain rfl : result = response := Option.some.inj hreturned
    exact h
  | _ => cases hreturned

/-- Every successful call of a key is answered as the call that committed under it was. -/
theorem Idempotent.Coherent.answered {crypto : Crypto} {s : Idempotent σ} (h : s.Coherent crypto) {i : ℕ}
    {c : CallState σ} {response : Response} (hc : s.calls[i]? = some c)
    (hreturned : c.phase.returned = some response) :
    ∃ (j : ℕ) (w : CallState σ), s.calls[j]? = some w ∧ w.phase = .committed response ∧
      w.call.scope = c.call.scope ∧ w.call.key = c.call.key ∧ w.call.principalId = c.call.principalId ∧
      canonicalHash crypto w.call.payload = canonicalHash crypto c.call.payload := by
  obtain ⟨r, hr, hanswer⟩ := (h.valid i c hc).returned hreturned
  obtain ⟨j, w, result, hw, hcommitted, hwrote⟩ := h.origin r hr
  have hresult : result = response := by
    obtain ⟨status, body⟩ := result
    obtain ⟨status', body'⟩ := response
    have hstatus := hwrote.status.symm.trans hanswer.status
    have hbody := hwrote.body.symm.trans hanswer.body
    injection hstatus with hstatus
    injection hbody with hbody
    rw [Response.mk.injEq]
    exact ⟨hstatus, hbody⟩
  subst hresult
  exact ⟨j, w, hw, hcommitted, hwrote.scope.symm.trans hanswer.scope, hwrote.key.symm.trans hanswer.key,
    hwrote.principal.symm.trans hanswer.principal, hwrote.fingerprint.trans hanswer.fingerprint.symm⟩

/-- A key takes effect at most once. Over every interleaving: at most one call of a key commits; every
record is completed with a status and a body; every call that returns was made by the principal and with
the fingerprint of the committing call and returns its response; and a call that fails changes no table. -/
theorem key_effective_once (crypto : Crypto) (db : σ) (events : List (IdempotentEvent σ)) :
    let s := run (idempotentStep crypto) (.initial db) events
    (∀ (i j : ℕ) (c c' : CallState σ) (response response' : Response), s.calls[i]? = some c →
      s.calls[j]? = some c' → c.phase = .committed response → c'.phase = .committed response' →
      c.call.scope = c'.call.scope → c.call.key = c'.call.key → i = j) ∧
    (∀ r ∈ s.records.rows, r.state = .completed ∧ r.responseStatus.isSome = true ∧ r.responseBody.isSome = true) ∧
    (∀ (i : ℕ) (c : CallState σ) (response : Response), s.calls[i]? = some c → c.phase.returned = some response →
      ∃ (j : ℕ) (w : CallState σ), s.calls[j]? = some w ∧ w.phase = .committed response ∧
        w.call.scope = c.call.scope ∧ w.call.key = c.call.key ∧ w.call.principalId = c.call.principalId ∧
        canonicalHash crypto w.call.payload = canonicalHash crypto c.call.payload) ∧
    (∀ (i : ℕ) (c : CallState σ) (before after : List (IdempotentEvent σ)) (e : CallEvent σ),
      s.calls[i]? = some c → c.phase = .failed → events = before ++ .step i e :: after →
      (run (idempotentStep crypto) (.initial db) (before ++ [.step i e])).db =
          (run (idempotentStep crypto) (.initial db) before).db ∧
        (run (idempotentStep crypto) (.initial db) (before ++ [.step i e])).records =
          (run (idempotentStep crypto) (.initial db) before).records) := by
  have hcoherent := coherent_run crypto db events
  refine ⟨hcoherent.once, ?_, ?_, ?_⟩
  · intro r hr
    obtain ⟨_, c, response, -, -, hanswers⟩ := hcoherent.origin r hr
    exact ⟨hanswers.state, by rw [hanswers.status]; rfl, by rw [hanswers.body]; rfl⟩
  · intro i c response hc hreturned
    exact hcoherent.answered hc hreturned
  · rintro i c before after e hc hfailed rfl
    rw [run_concat]
    rcases tables_step crypto (run (idempotentStep crypto) (.initial db) before) i e with
      hsame | ⟨b, response, hb, hcommitted⟩
    · exact hsame
    · -- Had the statement written anything, the call would still be committed at the end.
      obtain ⟨last, hlast, hphase⟩ := committed_run crypto after ⟨b, hb, hcommitted⟩
      rw [run_append] at hc
      obtain rfl : c = last := Option.some.inj (hc.symm.trans hlast)
      rw [hfailed] at hphase
      cases hphase

/-- A hash that keeps two bytes of a document. -/
def sampleCrypto : Crypto := ⟨fun message => message.take 2, fun _ message => message.take 2⟩

/-- An order request of the principal. -/
def sampleCall (principalId : Uuid) : IdempotentCall := ⟨"orders", "key-1", principalId, [("quantity", .int 5)], 201⟩

/-- Two calls race for the key: both look it up, the first inserts and commits, the second waits. -/
def sampleRace : List (IdempotentEvent ℕ) :=
  [.call (sampleCall ⟨1⟩), .call (sampleCall ⟨1⟩), .step 0 (.lookup 0), .step 1 (.lookup 0), .step 0 (.insert 60),
    .step 1 (.insert 60), .step 0 (.work (.ok ([("id", .int 9)], (· + 1)))), .step 0 .complete, .step 0 .commit]

/-- After the race, the loser fails on the unique key, a repetition is answered from the record, and the
key is refused to another principal. -/
def sampleAftermath : List (IdempotentEvent ℕ) :=
  [.call (sampleCall ⟨1⟩), .step 2 (.lookup 1), .call (sampleCall ⟨2⟩), .step 3 (.lookup 1)]

/-- The race takes effect once. The repetition is answered as the winner was, and the loser's failing
insert leaves the tables as they were. -/
theorem key_effective_once_sample :
    let events := sampleRace ++ .step 1 (.insert 60) :: sampleAftermath
    let s := run (idempotentStep sampleCrypto) (.initial 0) events
    (s.db = 1 ∧ s.calls.map (fun c => c.phase.returned.isSome) = [true, false, true, false]) ∧
      (∃ (response : Response) (j : ℕ) (w : CallState ℕ), s.calls[j]? = some w ∧
        w.phase = .committed response ∧ w.call.principalId = ⟨1⟩) ∧
      (run (idempotentStep sampleCrypto) (.initial 0) (sampleRace ++ [.step 1 (.insert 60)])).db =
        (run (idempotentStep sampleCrypto) (.initial 0) sampleRace).db := by
  intro events s
  obtain ⟨-, -, hanswered, hfailed⟩ := key_effective_once sampleCrypto 0 events
  have hend : s.db = 1 ∧ s.calls.map (fun c => c.phase.returned.isSome) = [true, false, true, false] ∧
      (∃ c ∈ s.calls[2]?, c.call.principalId = ⟨1⟩ ∧ c.phase.returned.isSome = true) ∧
      ∃ c ∈ s.calls[1]?, (c.phase matches .failed) = true := by
    decide
  obtain ⟨hdb, hreturned, ⟨c, hc, hprincipal, hresponse⟩, ⟨loser, hloser, hphase⟩⟩ := hend
  obtain ⟨response, hresponse⟩ := Option.isSome_iff_exists.mp hresponse
  refine ⟨⟨hdb, hreturned⟩, ?_, ?_⟩
  · obtain ⟨j, w, hw, hcommitted, -, -, hsame, -⟩ := hanswered 2 c response hc hresponse
    exact ⟨response, j, w, hw, hcommitted, hsame.trans hprincipal⟩
  · have hlost : loser.phase = .failed := by
      split at hphase
      · assumption
      · cases hphase
    exact (hfailed 1 loser sampleRace sampleAftermath (.insert 60) hloser hlost rfl).1

end TaxStamp
