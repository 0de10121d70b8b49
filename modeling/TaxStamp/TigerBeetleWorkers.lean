import TaxStamp.Lib.Slots
import TaxStamp.Lib.WriteOnce
import TaxStamp.Lifecycle

/-!
# Ledger workers

Any number of workers run `submit_intent_lookup_before_retry` while the other services go
on. A worker takes one database transaction or one client call at a time and may die
between any two of them. The external ledger is a write-once map; a creation may store the
transfer whether or not its answer arrives, and other clients store transfers too.
-/

namespace TaxStamp

open Lib

/-- What a submission reports. -/
inductive SubmissionResult
  | terminal
  | rejected
  | quarantined
  | posted
  deriving DecidableEq, Repr

/-- Where a submission stands, with the transfer it goes on with. -/
inductive Submission
  | starting
  | announced (expected : TigerBeetleTransfer)
  | absent (expected : TigerBeetleTransfer)
  | refused
  | created (expected : TigerBeetleTransfer)
  | observed (transfer : TigerBeetleTransfer)
  | confirmed
  | returned (result : SubmissionResult)
  | failed
  deriving DecidableEq, Repr

/-- A worker that submits a ledger intent. -/
structure LedgerWorker where
  intentId : Uuid
  submission : Submission

/-- The platform, the external ledger, the transfers that workers have caused to be stored in it, and the
workers. -/
structure Subledger where
  platform : Platform
  external : WriteOnce String TigerBeetleTransfer
  caused : List TigerBeetleTransfer
  workers : List LedgerWorker

/-- Nothing has been posted. -/
def Subledger.initial (companies : Table companySchema) (tariffs : Table tariffSchema) : Subledger :=
  ⟨.initial companies tariffs, .empty, [], []⟩

/-- The next transaction or client call of a worker. A lookup is answered or fails; a creation may store
the transfer under a timestamp of the external ledger, and is answered or fails. -/
inductive WorkerEvent
  | mark (clock : ℕ → Time)
  | lookup (answered : Bool)
  | create (stores : Bool) (timestamp : ℤ) (answer : Option TigerBeetleCreateResult)
  | reject (draws : Draws) (clock : ℕ → Time)
  | confirm (draws : Draws) (clock : ℕ → Time)
  | finalise (draws : Draws) (clock : ℕ → Time)
  | die

/-- A transaction of another service, a new submission, the next step of a worker, or a transfer of
another client. -/
inductive SubledgerEvent
  | service (e : Event)
  | submit (intentId : Uuid)
  | worker (index : ℕ) (e : WorkerEvent)
  | foreign (transfer : TigerBeetleTransfer)

/-- A worker's transaction is a transaction of the platform. -/
def Subledger.work (settings : Settings) (s : Subledger) (work : LedgerWork) : Subledger :=
  { s with platform := step settings s.platform (.ledgerWork work) }

/-- A worker's creation reaches the external ledger. -/
def Subledger.store (s : Subledger) (transfer : TigerBeetleTransfer) : Subledger :=
  if (s.external.get transfer.transferId).isSome then s
  else { s with external := s.external.store transfer.transferId transfer, caused := s.caused ++ [transfer] }

/-- Where a submission goes on after a transaction. -/
def Submission.after {α : Type} (result : Except Fault (α × Db)) (next : α → Submission) : Submission :=
  match result with
  | .ok (a, _) => next a
  | .error _ => .failed

/-- The steps of `submit_intent_lookup_before_retry`. -/
def submitIntentLookupBeforeRetry (settings : Settings) (s : Subledger) (w : LedgerWorker) (e : WorkerEvent) :
    Subledger × Submission :=
  match w.submission, e with
  | .starting, .mark clock =>
    (s.work settings (.mark w.intentId clock),
      .after (markSubmissionUncertain w.intentId clock s.platform.db) fun
        | some intent => .announced (transferFromIntent intent)
        | none => .returned .terminal)
  | .announced expected, .lookup answered =>
    (s,
      if answered then
        match s.external.get expected.transferId with
        | some transfer => .observed transfer
        | none => .absent expected
      else .failed)
  | .absent expected, .create stores timestamp answer =>
    (if stores then s.store { expected with timestamp := timestamp } else s,
      match answer with
      | some .rejected => .refused
      | some .created | some .exists => .created expected
      | none => .failed)
  | .refused, .reject draws clock =>
    (s.work settings (.reject draws w.intentId "TigerBeetle rejected the transfer" clock),
      .after (rejectLedgerIntent settings draws w.intentId "TigerBeetle rejected the transfer" clock s.platform.db)
        fun _ => .returned .rejected)
  | .created expected, .lookup answered =>
    (s,
      if answered then
        match s.external.get expected.transferId with
        | some transfer => .observed transfer
        | none => .failed
      else .failed)
  | .observed transfer, .confirm draws clock =>
    (s.work settings (.confirm draws w.intentId transfer clock),
      .after (confirmOrQuarantine settings draws w.intentId transfer clock s.platform.db) fun confirmed =>
        if confirmed then .confirmed else .returned .quarantined)
  | .confirmed, .finalise draws clock =>
    (s.work settings (.finalise draws w.intentId clock),
      .after (finalisePosted settings draws w.intentId clock s.platform.db) fun _ => .returned .posted)
  | .returned result, _ => (s, .returned result)
  | _, .die => (s, .failed)
  | submission, _ => (s, submission)

/-- The subledger after an event. The workers' transactions come from the workers only. -/
def subledgerStep (settings : Settings) (s : Subledger) : SubledgerEvent → Subledger
  | .service (.ledgerWork _) => s
  | .service e => { s with platform := step settings s.platform e }
  | .submit intentId => { s with workers := s.workers ++ [⟨intentId, .starting⟩] }
  | .foreign transfer => { s with external := s.external.store transfer.transferId transfer }
  | .worker index e =>
    match s.workers[index]? with
    | none => s
    | some w =>
      let (s', submission) := submitIntentLookupBeforeRetry settings s w e
      { s' with workers := s.workers.set index ⟨w.intentId, submission⟩ }

/-- The payment of the intent is settled. -/
def TigerBeetleLedgerIntent.PaidIn (i : TigerBeetleLedgerIntent) (db : Db) : Prop :=
  ∃ p ∈ db.paymentIntents.rows, p.id = i.paymentIntentId ∧ p.status = .settled ∧ p.amountMinor = i.amountMinor

/-- What a transaction does to the ledger intents: each advances, and a new one is ready and paid. -/
structure IntentsAdvance (evidence : Option TigerBeetleTransfer) (db db' : Db) : Prop where
  kept : ∀ i ∈ db.tigerbeetleLedgerIntents.rows, ∃ i' ∈ db'.tigerbeetleLedgerIntents.rows, i.Advances i'
  origin : ∀ i' ∈ db'.tigerbeetleLedgerIntents.rows,
    (∃ i ∈ db.tigerbeetleLedgerIntents.rows, AdvancesOn evidence i i') ∨ (i'.state = .ready ∧ i'.PaidIn db)

/-- The ledger intents stay as they are. -/
theorem IntentsAdvance.of_eq {evidence : Option TigerBeetleTransfer} {db db' : Db}
    (h : db'.tigerbeetleLedgerIntents = db.tigerbeetleLedgerIntents) : IntentsAdvance evidence db db' := by
  constructor
  · intro i hi
    exact ⟨i, h ▸ hi, .refl i⟩
  · intro i hi
    exact .inl ⟨i, h ▸ hi, .refl i, .inl⟩

/-- A ledger intent is determined by its identifier. -/
theorem ledgerIntent_eq_of_id (db : Db) {i i' : TigerBeetleLedgerIntent} (hi : i ∈ db.tigerbeetleLedgerIntents.rows)
    (hi' : i' ∈ db.tigerbeetleLedgerIntents.rows) (hid : i.id = i'.id) : i = i' :=
  db.tigerbeetleLedgerIntents.eq_of_clash hi hi' (by simp [tigerbeetleLedgerIntentSchema, hid])

/-- A worker's transaction advances the ledger intents on its evidence. -/
theorem WorkOutcome.intentsAdvance {settings : Settings} {work : LedgerWork} {db db' : Db}
    (h : WorkOutcome settings work db db') :
    IntentsAdvance work.evidence db db' := by
  rcases h with rfl | ⟨intent, f, heffect, hadvances⟩
  · exact .of_eq rfl
  · cases heffect with
    | rewritten f L A hintent hid hL =>
      -- The identifier is unique, so the rewriting touches the locked intent only.
      have hrow : ∀ i ∈ db.tigerbeetleLedgerIntents.rows, AdvancesOn work.evidence i
          (if i.id = work.intentId then f i else i) := by
        intro i hi
        split
        · rename_i hsame
          obtain rfl := ledgerIntent_eq_of_id db hi hintent (hsame.trans hid.symm)
          exact hadvances
        · exact ⟨.refl i, .inl⟩
      constructor
      · intro i hi
        refine ⟨_, ?_, (hrow i hi).toAdvances⟩
        change _ ∈ L.rows
        rw [hL]
        exact List.mem_map_of_mem hi
      · intro i' hi'
        change i' ∈ L.rows at hi'
        rw [hL] at hi'
        obtain ⟨i, hi, rfl⟩ := List.mem_map.mp hi'
        exact .inl ⟨i, hi, hrow i hi⟩

/-- A request adds a ready intent of a settled payment or changes nothing. -/
theorem CreateEffect.intentsAdvance {settings : Settings} {draws : Draws} {db db' : Db}
    (h : CreateEffect settings draws db db') : IntentsAdvance none db db' := by
  cases h with
  | reused => exact .of_eq rfl
  | created intent payment L M A hpayment hid hsettled hamount hcurrency hready hL =>
    constructor
    · intro i hi
      refine ⟨i, ?_, .refl i⟩
      change i ∈ L.rows
      rw [hL]
      exact List.mem_append_left _ hi
    · intro i hi
      change i ∈ L.rows at hi
      rw [hL, List.mem_append, List.mem_singleton] at hi
      rcases hi with hi | rfl
      · exact .inl ⟨i, hi, .refl i, .inl⟩
      · exact .inr ⟨hready, payment, hpayment, hid, hsettled, hamount⟩

/-- The ledger intents stay as they are, or a request has been committed. -/
def RequestsOnly (settings : Settings) (db db' : Db) : Prop :=
  db'.tigerbeetleLedgerIntents = db.tigerbeetleLedgerIntents ∨ ∃ draws, CreateEffect settings draws db db'

/-- What the services other than the workers commit only requests ledger intents. -/
theorem Committed.requestsOnly {settings : Settings} {s : Platform} {e : Event} {db' : Db}
    (h : Committed settings s e db') (hother : ∀ work, e ≠ .ledgerWork work) : RequestsOnly settings s.db db' := by
  cases h with
  | unchanged => exact .inl rfl
  | submitOrder h =>
    obtain ⟨draft, compliant, O, T, A, -, -, -, -, -, -, rfl⟩ := submitOrder_ok h
    exact .inl rfl
  | decideApproval h =>
    obtain ⟨order, P, db₁, A, -, -, -, -, -, -, -, heffect, -, rfl⟩ := decideApproval_ok h
    cases heffect <;> exact .inl rfl
  | cancelOrder h =>
    obtain ⟨order, O, T, A, -, -, -, -, -, -, -, rfl⟩ := cancelOrder_ok h
    exact .inl rfl
  | ingestRemittance h => cases ingestRemittance_ok h <;> exact .inl rfl
  | issueChunk h =>
    cases issueOrderChunk_ok h
    exact .inl rfl
  | recordInspection h =>
    cases recordInspection_ok h
    exact .inl rfl
  | activateStamps ha h =>
    cases activateStamps_ok h
    exact .inl rfl
  | voidStamps h =>
    cases voidStamps_ok h
    exact .inl rfl
  | expireDueStamps h =>
    cases expireDueStamps_ok h
    exact .inl rfl
  | createLedgerIntent h => exact .inr ⟨_, createLedgerIntent_ok h⟩
  | ledgerWork work => exact absurd rfl (hother work)
  | claimBatch h =>
    obtain ⟨candidates, M, -, -, -, rfl⟩ := claimBatch_ok h
    exact .inl rfl
  | markProcessed h =>
    obtain ⟨M, -, rfl⟩ := markProcessed_ok h
    exact .inl rfl
  | markFailed h =>
    obtain ⟨M, -, -, rfl⟩ := markFailed_ok h
    exact .inl rfl
  | recordAudit h =>
    obtain ⟨A, -, rfl⟩ := recordAuditEvent_ok h
    exact .inl rfl

/-- The services other than the workers only request ledger intents. -/
theorem step_requestsOnly (settings : Settings) (s : Platform) (e : Event) (hother : ∀ work, e ≠ .ledgerWork work) :
    RequestsOnly settings s.db (step settings s e).db :=
  (step_committed settings s e).requestsOnly hother

/-- The services other than the workers only add ledger intents. -/
theorem step_intentsAdvance (settings : Settings) (s : Platform) (e : Event) (hother : ∀ work, e ≠ .ledgerWork work) :
    IntentsAdvance none s.db (step settings s e).db := by
  rcases step_requestsOnly settings s e hother with hsame | ⟨draws, hcreate⟩
  · exact .of_eq hsame
  · exact hcreate.intentsAdvance

/-- A settled payment stays settled. -/
theorem TigerBeetleLedgerIntent.PaidIn.step {i : TigerBeetleLedgerIntent} (settings : Settings) (s : Platform)
    (e : Event) (h : i.PaidIn s.db) : i.PaidIn (TaxStamp.step settings s e).db := by
  obtain ⟨p, hp, hid, hsettled, hamount⟩ := h
  cases (step_change settings s e).intentStep with
  | same hI =>
    refine ⟨p, ?_, hid, hsettled, hamount⟩
    rw [hI]
    exact hp
  | opened draws order now horder hI =>
    refine ⟨p, ?_, hid, hsettled, hamount⟩
    rw [hI]
    exact List.mem_append_left _ hp
  | settled intent now hI =>
    have hmem : (if p.id = intent.id then p.settle now else p) ∈
        (TaxStamp.step settings s e).db.paymentIntents.rows := by
      rw [hI]
      exact List.mem_map_of_mem hp
    split at hmem
    · exact ⟨p.settle now, hmem, hid, rfl, hamount⟩
    · exact ⟨p, hmem, hid, hsettled, hamount⟩

/-- The material of an intent decides what matches it. -/
theorem transferMatches_congr {i i' : TigerBeetleLedgerIntent} (h : transferFromIntent i' = transferFromIntent i)
    (t : TigerBeetleTransfer) : transferMatches i' t = transferMatches i t := by
  simp only [transferFromIntent, TigerBeetleTransfer.mk.injEq] at h
  obtain ⟨hid, hdebit, hcredit, hledger, hcode, hflags, hamount, -⟩ := h
  simp only [transferMatches, hid, hdebit, hcredit, hledger, hcode, hflags, hamount]

/-- A matching transfer carries the identifier of the intent. -/
theorem transferId_of_matches {i : TigerBeetleLedgerIntent} {t : TigerBeetleTransfer}
    (h : transferMatches i t = true) : t.transferId = i.tigerbeetleTransferId := by
  simp only [transferMatches, Bool.and_eq_true, decide_eq_true_eq] at h
  exact h.1.1.1.1.1.1

/-- The transfer asked for matches the intent under every timestamp. -/
theorem transferMatches_from (i : TigerBeetleLedgerIntent) (timestamp : ℤ) :
    transferMatches i { transferFromIntent i with timestamp := timestamp } = true := by
  simp [transferMatches, transferFromIntent]

/-- The ledger intents of the subledger. -/
def Subledger.intents (s : Subledger) : List TigerBeetleLedgerIntent := s.platform.db.tigerbeetleLedgerIntents.rows

/-- What a worker goes on with is true: a transfer it would create is the one an intent asks for, and a
transfer it has observed is in the external ledger. -/
def LedgerWorker.Informed (w : LedgerWorker) (s : Subledger) : Prop :=
  match w.submission with
  | .announced expected | .absent expected | .created expected => ∃ i ∈ s.intents, transferFromIntent i = expected
  | .observed transfer => s.external.get transfer.transferId = some transfer
  | .starting | .refused | .confirmed | .returned _ | .failed => True

/-- The subledger is sound: confirmed intents have their transfer, every intent is paid, the workers are
informed, and the transfers they have caused are those of intents, one each. -/
structure Subledger.Sound (s : Subledger) : Prop where
  keyed : ∀ k t, s.external.get k = some t → t.transferId = k
  confirmed : ∀ i ∈ s.intents, i.Confirmed →
    ∃ t, s.external.get i.tigerbeetleTransferId = some t ∧ transferMatches i t = true
  paid : ∀ i ∈ s.intents, i.PaidIn s.platform.db
  informed : ∀ w ∈ s.workers, w.Informed s
  caused : ∀ t ∈ s.caused, s.external.get t.transferId = some t ∧ ∃ i ∈ s.intents, transferMatches i t = true
  once : (s.caused.map TigerBeetleTransfer.transferId).Nodup

/-- Nothing has been posted. -/
theorem Subledger.Sound.initial (companies : Table companySchema) (tariffs : Table tariffSchema) :
    (Subledger.initial companies tariffs).Sound := by
  constructor
  · intro k t h
    cases h
  · intro i hi
    cases hi
  · intro i hi
    cases hi
  · intro w hw
    cases hw
  · intro t ht
    cases ht
  · exact List.nodup_nil

/-- The ledger intents have advanced and the external ledger has kept its entries. -/
structure Subledger.Grows (s s' : Subledger) : Prop where
  intents : ∀ i ∈ s.intents, ∃ i' ∈ s'.intents, i.Advances i'
  external : ∀ k t, s.external.get k = some t → s'.external.get k = some t

/-- Nothing has happened. -/
theorem Subledger.Grows.refl (s : Subledger) : s.Grows s := ⟨fun i hi => ⟨i, hi, .refl i⟩, fun _ _ => id⟩

/-- A worker stays informed. -/
theorem LedgerWorker.Informed.mono {w : LedgerWorker} {s s' : Subledger} (h : w.Informed s) (hgrows : s.Grows s') :
    w.Informed s' := by
  have hasked : ∀ {expected : TigerBeetleTransfer}, (∃ i ∈ s.intents, transferFromIntent i = expected) →
      ∃ i ∈ s'.intents, transferFromIntent i = expected := by
    rintro expected ⟨i, hi, hasked⟩
    obtain ⟨i', hi', hadvances⟩ := hgrows.intents i hi
    exact ⟨i', hi', hadvances.transfer.trans hasked⟩
  unfold LedgerWorker.Informed at h ⊢
  split at h
  · exact hasked h
  · exact hasked h
  · exact hasked h
  · exact hgrows.external _ _ h
  all_goals trivial

section Preservation

variable {s : Subledger} (h : s.Sound)
include h

/-- A transaction of the platform keeps the subledger sound if what it rests on is in the external ledger. -/
theorem Subledger.Sound.platform {P : Platform} {evidence : Option TigerBeetleTransfer}
    (hadvance : IntentsAdvance evidence s.platform.db P.db)
    (hpaid : ∀ i : TigerBeetleLedgerIntent, i.PaidIn s.platform.db → i.PaidIn P.db)
    (hevidence : ∀ t ∈ evidence, s.external.get t.transferId = some t) :
    ({ s with platform := P } : Subledger).Sound ∧ s.Grows { s with platform := P } := by
  have hgrows : s.Grows { s with platform := P } := ⟨hadvance.kept, fun _ _ => id⟩
  refine ⟨⟨h.keyed, ?_, ?_, fun w hw => (h.informed w hw).mono hgrows, ?_, h.once⟩, hgrows⟩
  · intro i' hi' hconfirmed
    rcases hadvance.origin i' hi' with ⟨i, hi, hon⟩ | ⟨hready, -⟩
    · have hsame : i'.tigerbeetleTransferId = i.tigerbeetleTransferId :=
        congrArg TigerBeetleTransfer.transferId hon.transfer
      rcases hon.confirmed hconfirmed with hold | ⟨t, ht, hmatches⟩
      · obtain ⟨t, hget, hmatches⟩ := h.confirmed i hi hold
        refine ⟨t, ?_, ?_⟩
        · rw [hsame]
          exact hget
        · rw [transferMatches_congr hon.transfer]
          exact hmatches
      · refine ⟨t, ?_, hmatches⟩
        rw [← transferId_of_matches hmatches]
        exact hevidence t ht
    · rcases hconfirmed with hstate | hstate <;> rw [hready] at hstate <;> cases hstate
  · intro i' hi'
    rcases hadvance.origin i' hi' with ⟨i, hi, hon⟩ | ⟨-, hpaid'⟩
    · obtain ⟨p, hp, hid, hsettled, hamount⟩ := hpaid i (h.paid i hi)
      have hsame : i'.amountMinor = i.amountMinor := congrArg TigerBeetleTransfer.amountMinor hon.transfer
      exact ⟨p, hp, hid.trans hon.payment.symm, hsettled, hamount.trans hsame.symm⟩
    · exact hpaid i' hpaid'
  · intro t ht
    obtain ⟨hget, i, hi, hmatches⟩ := h.caused t ht
    obtain ⟨i', hi', hadvances⟩ := hadvance.kept i hi
    refine ⟨hget, i', hi', ?_⟩
    rw [transferMatches_congr hadvances.transfer]
    exact hmatches

/-- A worker's transaction keeps the subledger sound if what it rests on is in the external ledger. -/
theorem Subledger.Sound.work (settings : Settings) (work : LedgerWork)
    (hevidence : ∀ t ∈ work.evidence, s.external.get t.transferId = some t) :
    (s.work settings work).Sound ∧ s.Grows (s.work settings work) :=
  h.platform (work.commit_outcome settings s.platform.db).intentsAdvance
    (fun _ hpaid => hpaid.step settings s.platform (.ledgerWork work)) hevidence

/-- A transfer stored by another client keeps the subledger sound. -/
theorem Subledger.Sound.foreign (t : TigerBeetleTransfer) :
    ({ s with external := s.external.store t.transferId t } : Subledger).Sound ∧
      s.Grows { s with external := s.external.store t.transferId t } := by
  have hgrows : s.Grows { s with external := s.external.store t.transferId t } :=
    ⟨fun i hi => ⟨i, hi, .refl i⟩, fun _ _ => WriteOnce.get_store_of_some⟩
  refine ⟨⟨?_, ?_, h.paid, fun w hw => (h.informed w hw).mono hgrows, ?_, h.once⟩, hgrows⟩
  · intro k t' hget
    rcases WriteOnce.get_store_cases hget with hold | ⟨rfl, rfl⟩
    · exact h.keyed k t' hold
    · rfl
  · intro i hi hconfirmed
    obtain ⟨t', hget, hmatches⟩ := h.confirmed i hi hconfirmed
    exact ⟨t', WriteOnce.get_store_of_some hget, hmatches⟩
  · intro t' ht'
    obtain ⟨hget, hintent⟩ := h.caused t' ht'
    exact ⟨WriteOnce.get_store_of_some hget, hintent⟩

/-- A worker's creation keeps the subledger sound if an intent asks for the transfer. -/
theorem Subledger.Sound.store {t : TigerBeetleTransfer} (hasked : ∃ i ∈ s.intents, transferMatches i t = true) :
    (s.store t).Sound ∧ s.Grows (s.store t) := by
  unfold Subledger.store
  split
  · exact ⟨h, .refl s⟩
  · rename_i hfree
    have hnone : s.external.get t.transferId = none := by simpa using hfree
    obtain ⟨hsound, hgrows⟩ := h.foreign t
    refine ⟨⟨hsound.keyed, hsound.confirmed, hsound.paid, hsound.informed, ?_, ?_⟩, hgrows.intents, hgrows.external⟩
    · intro t' ht'
      change t' ∈ s.caused ++ [t] at ht'
      rw [List.mem_append, List.mem_singleton] at ht'
      rcases ht' with hold | rfl
      · exact hsound.caused t' hold
      · exact ⟨WriteOnce.get_store_self hnone, hasked⟩
    · -- The identifier was free, and every transfer caused so far is stored under its own.
      change ((s.caused ++ [t]).map TigerBeetleTransfer.transferId).Nodup
      rw [List.map_append, List.map_singleton, ← List.concat_eq_append, List.nodup_concat]
      refine ⟨?_, h.once⟩
      intro hmem
      obtain ⟨t', ht', hsame⟩ := List.mem_map.mp hmem
      have hget := (h.caused t' ht').1
      rw [hsame, hnone] at hget
      cases hget

end Preservation

/-- A submission goes on after a transaction that committed, or has failed. -/
theorem Submission.after_cases {α : Type} (result : Except Fault (α × Db)) (next : α → Submission) :
    (∃ a db', result = .ok (a, db') ∧ Submission.after result next = next a) ∨
      Submission.after result next = .failed := by
  cases result with
  | ok r => exact .inl ⟨r.1, r.2, rfl, rfl⟩
  | error fault => exact .inr rfl

/-- A worker that has announced an attempt goes on with the transfer of its intent. -/
theorem announced_informed {settings : Settings} {s : Subledger} {intentId : Uuid} {clock : ℕ → Time}
    (hgrows : s.Grows (s.work settings (.mark intentId clock))) :
    LedgerWorker.Informed ⟨intentId, .after (markSubmissionUncertain intentId clock s.platform.db) fun
      | some intent => .announced (transferFromIntent intent)
      | none => .returned .terminal⟩ (s.work settings (.mark intentId clock)) := by
  unfold LedgerWorker.Informed
  cases hmark : markSubmissionUncertain intentId clock s.platform.db with
  | error fault => trivial
  | ok result =>
    obtain ⟨result, db'⟩ := result
    obtain ⟨intent, ⟨-, rfl, -⟩ | ⟨-, rfl, heffect⟩⟩ := markSubmissionUncertain_ok settings hmark
    · trivial
    · cases heffect with
      | rewritten f L A hintent hid hL =>
        obtain ⟨i', hi', hadvances⟩ := hgrows.intents intent hintent
        exact ⟨i', hi', hadvances.transfer⟩

/-- The workers of the subledger are not touched by a submission's step. -/
theorem submit_workers (settings : Settings) (s : Subledger) (w : LedgerWorker) (e : WorkerEvent) :
    (submitIntentLookupBeforeRetry settings s w e).1.workers = s.workers := by
  unfold submitIntentLookupBeforeRetry
  split
  case h_3 stores _ _ _ =>
    dsimp only
    split
    · unfold Subledger.store
      split <;> rfl
    · rfl
  all_goals rfl

/-- What a lookup returns is in the external ledger under its own identifier. -/
theorem observed_informed {s : Subledger} (h : s.Sound) {k : String} {t : TigerBeetleTransfer} {intentId : Uuid}
    (hget : s.external.get k = some t) : LedgerWorker.Informed ⟨intentId, .observed t⟩ s := by
  change s.external.get t.transferId = some t
  rw [h.keyed k t hget]
  exact hget

/-- A step of a submission keeps the subledger sound and its worker informed. -/
theorem Subledger.Sound.submit {s : Subledger} (h : s.Sound) (settings : Settings) {w : LedgerWorker}
    (hw : w.Informed s) (e : WorkerEvent) :
    ((submitIntentLookupBeforeRetry settings s w e).1.Sound ∧
        s.Grows (submitIntentLookupBeforeRetry settings s w e).1) ∧
      LedgerWorker.Informed ⟨w.intentId, (submitIntentLookupBeforeRetry settings s w e).2⟩
        (submitIntentLookupBeforeRetry settings s w e).1 := by
  have hknown : ∀ {submission : Submission}, w.submission = submission →
      LedgerWorker.Informed ⟨w.intentId, submission⟩ s := by
    rintro submission rfl
    exact hw
  unfold submitIntentLookupBeforeRetry
  split <;> dsimp only
  case h_1 clock hstarting =>
    have hwork := h.work settings (.mark w.intentId clock) (by simp [LedgerWork.evidence])
    exact ⟨hwork, announced_informed hwork.2⟩
  case h_2 expected answered hannounced =>
    have hasked : ∃ i ∈ s.intents, transferFromIntent i = expected := hknown hannounced
    refine ⟨⟨h, .refl s⟩, ?_⟩
    split
    · split
      · rename_i hget
        exact observed_informed h hget
      · exact hasked
    · trivial
  case h_3 expected stores timestamp answer habsent =>
    have hasked : ∃ i ∈ s.intents, transferFromIntent i = expected := hknown habsent
    have hstore : (if stores = true then s.store { expected with timestamp := timestamp } else s).Sound ∧
        s.Grows (if stores = true then s.store { expected with timestamp := timestamp } else s) := by
      split
      · obtain ⟨i, hi, rfl⟩ := hasked
        exact h.store ⟨i, hi, transferMatches_from i timestamp⟩
      · exact ⟨h, .refl s⟩
    refine ⟨hstore, ?_⟩
    have hcreated : LedgerWorker.Informed ⟨w.intentId, .created expected⟩ s := hasked
    split
    · trivial
    · exact hcreated.mono hstore.2
    · exact hcreated.mono hstore.2
    · trivial
  case h_4 draws clock hrefused =>
    refine ⟨h.work settings (.reject draws w.intentId _ clock) (by simp [LedgerWork.evidence]), ?_⟩
    rcases Submission.after_cases (rejectLedgerIntent settings draws w.intentId "TigerBeetle rejected the transfer"
      clock s.platform.db) (fun _ => .returned .rejected) with ⟨_, _, -, hafter⟩ | hafter <;> rw [hafter] <;> trivial
  case h_5 expected answered hcreated =>
    refine ⟨⟨h, .refl s⟩, ?_⟩
    split
    · split
      · rename_i hget
        exact observed_informed h hget
      · trivial
    · trivial
  case h_6 transfer draws clock hobserved =>
    have hget : s.external.get transfer.transferId = some transfer := hknown hobserved
    refine ⟨h.work settings (.confirm draws w.intentId transfer clock) ?_, ?_⟩
    · rintro t ⟨⟩
      exact hget
    · rcases Submission.after_cases (confirmOrQuarantine settings draws w.intentId transfer clock s.platform.db)
        (fun confirmed => if confirmed then .confirmed else .returned .quarantined) with
        ⟨confirmed, _, -, hafter⟩ | hafter <;> rw [hafter]
      · cases confirmed <;> trivial
      · trivial
  case h_7 draws clock hconfirmed =>
    refine ⟨h.work settings (.finalise draws w.intentId clock) (by simp [LedgerWork.evidence]), ?_⟩
    rcases Submission.after_cases (finalisePosted settings draws w.intentId clock s.platform.db)
      (fun _ => .returned .posted) with ⟨_, _, -, hafter⟩ | hafter <;> rw [hafter] <;> trivial
  case h_8 => exact ⟨⟨h, .refl s⟩, trivial⟩
  case h_9 => exact ⟨⟨h, .refl s⟩, trivial⟩
  case h_10 => exact ⟨⟨h, .refl s⟩, hw⟩

/-- Every event keeps the subledger sound and lets it grow. -/
theorem Subledger.Sound.step {s : Subledger} (h : s.Sound) (settings : Settings) (e : SubledgerEvent) :
    (subledgerStep settings s e).Sound ∧ s.Grows (subledgerStep settings s e) := by
  unfold subledgerStep
  split
  · exact ⟨h, .refl s⟩
  · rename_i e hother
    exact h.platform (step_intentsAdvance settings s.platform e fun work hwork => hother work (by rw [hwork]))
      (fun _ hpaid => hpaid.step settings s.platform e) (by simp)
  · rename_i intentId
    refine ⟨⟨h.keyed, h.confirmed, h.paid, ?_, h.caused, h.once⟩, (Grows.refl s).intents, (Grows.refl s).external⟩
    intro w hw
    rcases List.mem_append.mp hw with hold | hnew
    · exact h.informed w hold
    · rw [List.mem_singleton.mp hnew]
      trivial
  · rename_i transfer
    exact h.foreign transfer
  · rename_i index e
    split
    · exact ⟨h, .refl s⟩
    · rename_i w hw
      obtain ⟨⟨hsound, hgrows⟩, hinformed⟩ := h.submit settings (h.informed w (List.mem_of_getElem? hw)) e
      have hworkers := submit_workers settings s w e
      refine ⟨⟨hsound.keyed, hsound.confirmed, hsound.paid, ?_, hsound.caused, hsound.once⟩, hgrows.intents,
        hgrows.external⟩
      intro b hb
      rcases List.mem_or_eq_of_mem_set hb with hold | rfl
      · rw [← hworkers] at hold
        exact hsound.informed b hold
      · exact hinformed

/-- The subledger is sound after every run. -/
theorem sound_run (settings : Settings) (companies : Table companySchema) (tariffs : Table tariffSchema)
    (events : List SubledgerEvent) : (run (subledgerStep settings) (.initial companies tariffs) events).Sound :=
  run_invariant Subledger.Sound (fun _ e h => (h.step settings e).1) _ (.initial companies tariffs) events

/-- A ledger intent is determined by its payment. -/
theorem ledgerIntent_eq_of_payment (db : Db) {i i' : TigerBeetleLedgerIntent}
    (hi : i ∈ db.tigerbeetleLedgerIntents.rows) (hi' : i' ∈ db.tigerbeetleLedgerIntents.rows)
    (hpayment : i.paymentIntentId = i'.paymentIntentId) : i = i' :=
  db.tigerbeetleLedgerIntents.eq_of_clash hi hi' (by simp [tigerbeetleLedgerIntentSchema, hpayment])

/-- Posting is safe over every interleaving of any number of workers with crashes anywhere. A confirmed or
posted intent has a matching transfer under its identifier in the external ledger; a transfer that a worker
has caused is that of the single ledger intent of a settled payment, and a payment causes at most one; and
every change of an intent's state is an edge of the transitions. -/
theorem posting_safe (settings : Settings) (companies : Table companySchema) (tariffs : Table tariffSchema)
    (events : List SubledgerEvent) :
    let s := run (subledgerStep settings) (.initial companies tariffs) events
    (∀ i ∈ s.intents, i.state = .externalConfirmed ∨ i.state = .posted →
      ∃ t, s.external.get i.tigerbeetleTransferId = some t ∧ transferMatches i t = true) ∧
    (∀ t ∈ s.caused, ∃ i ∈ s.intents, transferMatches i t = true ∧
      (∀ i' ∈ s.intents, i'.paymentIntentId = i.paymentIntentId → i' = i) ∧
      ∃ p ∈ s.platform.db.paymentIntents.rows, p.id = i.paymentIntentId ∧ p.status = .settled ∧
        p.amountMinor = i.amountMinor) ∧
    (∀ (j k : ℕ) (t t' : TigerBeetleTransfer), ∀ i ∈ s.intents, ∀ i' ∈ s.intents, s.caused[j]? = some t →
      s.caused[k]? = some t' → transferMatches i t = true → transferMatches i' t' = true →
      i.paymentIntentId = i'.paymentIntentId → j = k) ∧
    (∀ (before after : List SubledgerEvent) (e : SubledgerEvent), events = before ++ e :: after →
      ∀ i ∈ (run (subledgerStep settings) (.initial companies tariffs) before).intents,
      ∀ i' ∈ (run (subledgerStep settings) (.initial companies tariffs) (before ++ [e])).intents,
        i'.id = i.id → i'.state ≠ i.state → i'.state ∈ tigerbeetleLedgerIntentTransitions i.state) := by
  intro s
  have hsound : s.Sound := sound_run settings companies tariffs events
  refine ⟨hsound.confirmed, ?_, ?_, ?_⟩
  · intro t ht
    obtain ⟨-, i, hi, hmatches⟩ := hsound.caused t ht
    exact ⟨i, hi, hmatches, fun i' hi' hpayment => ledgerIntent_eq_of_payment _ hi' hi hpayment, hsound.paid i hi⟩
  · intro j k t t' i hi i' hi' hj hk hmatches hmatches' hpayment
    obtain rfl := ledgerIntent_eq_of_payment _ hi hi' hpayment
    have hsame : t.transferId = t'.transferId :=
      (transferId_of_matches hmatches).trans (transferId_of_matches hmatches').symm
    have hlt : j < (s.caused.map TigerBeetleTransfer.transferId).length := by
      rw [List.length_map]
      exact (List.getElem?_eq_some_iff.mp hj).1
    refine (List.getElem?_inj hlt hsound.once).mp ?_
    rw [List.getElem?_map, List.getElem?_map, hj, hk, Option.map_some, Option.map_some, hsame]
  · rintro before after e - i hi i' hi' hid hchanged
    have hgrows := ((sound_run settings companies tariffs before).step settings e).2
    rw [run_concat] at hi'
    obtain ⟨i'', hi'', hadvances⟩ := hgrows.intents i hi
    obtain rfl := ledgerIntent_eq_of_id _ hi' hi'' (hid.trans hadvances.id.symm)
    exact hadvances.state.resolve_left hchanged

/-- The sample settings with a digest of full length. -/
def sampleLedgerSettings : Settings :=
  { sampleSettings with crypto := ⟨fun message => List.replicate 32 (message.headD 0), sampleSettings.crypto.hmacSha256⟩ }

/-- The sample order is paid and its ledger intent is requested. A first worker's creation is stored but
its answer is lost; a second worker finds the transfer and posts the intent. -/
def samplePosting : List SubledgerEvent :=
  (sampleApproved ++ [sampleRemittance 3 "BANK-1" 1344, .createLedgerIntent (sampleDraws 4)
    ⟨⟨200⟩, "0000000000000000000000000000000a", "0000000000000000000000000000000b",
      "0000000000000000000000000000000c", 566, 7, 0, 1344, "NGN"⟩ sampleNow ⟨none, "x", "operator", none⟩]).map .service ++
  [.submit ⟨400⟩, .submit ⟨400⟩, .worker 0 (.mark fun _ => sampleNow), .worker 0 (.lookup true),
    .worker 0 (.create true 123456 none), .worker 1 (.mark fun _ => sampleNow), .worker 1 (.lookup true),
    .worker 1 (.confirm (sampleDraws 5) fun _ => sampleNow), .worker 1 (.finalise (sampleDraws 6) fun _ => sampleNow)]

/-- The lost answer does no harm: the sample intent is posted, its transfer is in the external ledger and
was caused once, for the settled payment. -/
theorem posting_safe_sample :
    let s := run (subledgerStep sampleLedgerSettings) (.initial sampleCompanies sampleTariffs) samplePosting
    (∃ i ∈ s.intents, i.state = .posted ∧
      ∃ t, s.external.get i.tigerbeetleTransferId = some t ∧ transferMatches i t = true) ∧
      ∃ t, s.caused = [t] ∧ ∃ i ∈ s.intents, transferMatches i t = true ∧
        ∃ p ∈ s.platform.db.paymentIntents.rows, p.id = i.paymentIntentId ∧ p.status = .settled := by
  have hsafe := posting_safe sampleLedgerSettings sampleCompanies sampleTariffs samplePosting
  have hend : (∃ i ∈ (run (subledgerStep sampleLedgerSettings) (.initial sampleCompanies sampleTariffs)
        samplePosting).intents, i.state = .posted) ∧
      (run (subledgerStep sampleLedgerSettings) (.initial sampleCompanies sampleTariffs)
        samplePosting).caused.length = 1 := by
    decide +kernel
  generalize run (subledgerStep sampleLedgerSettings) (.initial sampleCompanies sampleTariffs) samplePosting = s
    at hsafe hend ⊢
  obtain ⟨⟨i, hi, hposted⟩, hlength⟩ := hend
  obtain ⟨hconfirmed, hcaused, -⟩ := hsafe
  obtain ⟨t, ht⟩ := List.length_eq_one_iff.mp hlength
  refine ⟨⟨i, hi, hposted, hconfirmed i hi (.inr hposted)⟩, t, ht, ?_⟩
  obtain ⟨i', hi', hmatches, -, p, hp, hid, hsettled, -⟩ := hcaused t (by rw [ht]; exact List.mem_singleton_self t)
  exact ⟨i', hi', hmatches, p, hp, hid, hsettled⟩

/-- The sample order is paid and its ledger intent is requested. -/
def sampleRequested : List Event :=
  sampleApproved ++ [sampleRemittance 3 "BANK-1" 1344, .createLedgerIntent (sampleDraws 4)
    ⟨⟨200⟩, "0000000000000000000000000000000a", "0000000000000000000000000000000b",
      "0000000000000000000000000000000c", 566, 7, 0, 1344, "NGN"⟩ sampleNow ⟨none, "x", "operator", none⟩]

end TaxStamp
