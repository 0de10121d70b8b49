import TaxStamp.LedgerParity
import TaxStamp.TerminalIntents

/-!
# Submissions recover

A worker may die between any two of its statements and leave its intent announced, created in
the external ledger or confirmed there. Two things hold whatever such workers have left
behind. What a worker that has come to its end reports about its intent is so, and stays so.
And one more submission that nothing disturbs always finishes the intent: it posts the intent
when the external ledger has no other transfer under its identifier, and quarantines it when
it has one.
-/

namespace TaxStamp

open Lib

variable {settings : Settings} {db db' : Db} {intent : TigerBeetleLedgerIntent}

/-! ### Reports -/

/-- What a result reports about the intent. -/
def SubmissionResult.Reports (result : SubmissionResult) (i : TigerBeetleLedgerIntent) : Prop :=
  match result with
  | .terminal => i.state.finished
  | .rejected => i.state = .rejected
  | .quarantined => i.state = .quarantined
  | .posted => i.state = .posted

/-- Every result reports a finished intent. -/
theorem SubmissionResult.Reports.finished {result : SubmissionResult} {i : TigerBeetleLedgerIntent} (h : result.Reports i) :
    i.state.finished := by
  cases result with
  | terminal => exact h
  | rejected => exact .inr (.inl h)
  | quarantined => exact .inr (.inr h)
  | posted => exact .inl h

/-- A finished intent stays in its state. -/
theorem TigerBeetleLedgerIntent.Advances.of_finished {i i' : TigerBeetleLedgerIntent} (h : i.Advances i')
    (hfinished : i.state.finished) : i'.state = i.state :=
  h.state.resolve_right (transitions_of_finished hfinished)

/-- A report stays true while the intent advances. -/
theorem SubmissionResult.Reports.advances {result : SubmissionResult} {i i' : TigerBeetleLedgerIntent} (h : result.Reports i)
    (hadvances : i.Advances i') : result.Reports i' := by
  have hstate := hadvances.of_finished h.finished
  cases result with
  | terminal =>
    change i'.state.finished
    rw [hstate]
    exact h
  | rejected => exact hstate.trans h
  | quarantined => exact hstate.trans h
  | posted => exact hstate.trans h

/-- What a worker has returned is so. -/
def LedgerWorker.Truthful (w : LedgerWorker) (s : Subledger) : Prop :=
  ∀ result, w.submission = .returned result → ∃ i ∈ s.intents, i.id = w.intentId ∧ result.Reports i

/-- It stays so. -/
theorem LedgerWorker.Truthful.mono {w : LedgerWorker} {s s' : Subledger} (h : w.Truthful s) (hgrows : s.Grows s') :
    w.Truthful s' := by
  intro result hreturned
  obtain ⟨i, hi, hid, hreports⟩ := h result hreturned
  obtain ⟨i', hi', hadvances⟩ := hgrows.intents i hi
  exact ⟨i', hi', hadvances.id.trans hid, hreports.advances hadvances⟩

/-- A rewritten intent is in the table. -/
theorem WorkEffect.row {intentId : Uuid} {f : TigerBeetleLedgerIntent → TigerBeetleLedgerIntent}
    (h : WorkEffect settings intentId intent db (some f) db') :
    intent ∈ db.tigerbeetleLedgerIntents.rows ∧ intent.id = intentId ∧ f intent ∈ db'.tigerbeetleLedgerIntents.rows := by
  cases h with
  | rewritten f L A hintent hid hL =>
    refine ⟨hintent, hid, ?_⟩
    change f intent ∈ L.rows
    rw [hL]
    exact List.mem_map.mpr ⟨intent, hintent, if_pos hid⟩

/-- A worker's transaction that succeeds is committed. -/
theorem commit_of_ok {α : Type} {x : Session α} {a : α} (h : x db = .ok (a, db')) : x.commit db = db' := by
  simp only [Tx.commit, h]

/-- A submission that returns after a transaction has committed it. -/
theorem Submission.after_returned {α : Type} {outcome : Except Fault (α × Db)} {next : α → Submission}
    {result : SubmissionResult} (h : Submission.after outcome next = .returned result) :
    ∃ a db', outcome = .ok (a, db') ∧ next a = .returned result := by
  cases outcome with
  | ok r => exact ⟨r.1, r.2, rfl, h⟩
  | error fault => cases h

/-- What a submission returns at its next step is so afterwards. -/
theorem submit_truthful (settings : Settings) {s : Subledger} {w : LedgerWorker} (hw : w.Truthful s) (e : WorkerEvent) :
    LedgerWorker.Truthful ⟨w.intentId, (submitIntentLookupBeforeRetry settings s w e).2⟩
      (submitIntentLookupBeforeRetry settings s w e).1 := by
  intro result hreturned
  unfold submitIntentLookupBeforeRetry at hreturned ⊢
  split at hreturned <;> dsimp only at hreturned ⊢
  case h_1 clock hstarting =>
    obtain ⟨found, db', hmark, hnext⟩ := Submission.after_returned hreturned
    change ∃ i ∈ ((markSubmissionUncertain w.intentId clock).commit s.platform.db).tigerbeetleLedgerIntents.rows, _
    rw [commit_of_ok hmark]
    obtain ⟨i, ⟨hfinished, rfl, heffect⟩ | ⟨-, rfl, -⟩⟩ := markSubmissionUncertain_ok settings hmark
    · cases hnext
      cases heffect with
      | unchanged hintent hid => exact ⟨i, hintent, hid, hfinished⟩
    · cases hnext
  case h_2 expected answered hannounced =>
    split at hreturned
    · split at hreturned <;> cases hreturned
    · cases hreturned
  case h_3 expected stores timestamp answer habsent =>
    split at hreturned <;> cases hreturned
  case h_4 draws clock hrefused =>
    obtain ⟨u, db', hreject, hnext⟩ := Submission.after_returned hreturned
    change ∃ i ∈ ((rejectLedgerIntent settings draws w.intentId _ clock).commit
      s.platform.db).tigerbeetleLedgerIntents.rows, _
    rw [commit_of_ok hreject]
    cases hnext
    obtain ⟨i, -, heffect⟩ := rejectLedgerIntent_ok hreject
    obtain ⟨-, hid, hrow⟩ := heffect.row
    exact ⟨_, hrow, hid, rfl⟩
  case h_5 expected answered hcreated =>
    split at hreturned
    · split at hreturned <;> cases hreturned
    · cases hreturned
  case h_6 transfer draws clock hobserved =>
    obtain ⟨confirmed, db', hconfirm, hnext⟩ := Submission.after_returned hreturned
    change ∃ i ∈ ((confirmOrQuarantine settings draws w.intentId transfer clock).commit
      s.platform.db).tigerbeetleLedgerIntents.rows, _
    rw [commit_of_ok hconfirm]
    obtain ⟨i, ⟨-, rfl, -⟩ | ⟨-, rfl, heffect⟩⟩ := confirmOrQuarantine_ok hconfirm
    · cases hnext
    · cases hnext
      obtain ⟨-, hid, hrow⟩ := heffect.row
      exact ⟨_, hrow, hid, rfl⟩
  case h_7 draws clock hconfirmed =>
    obtain ⟨u, db', hpost, hnext⟩ := Submission.after_returned hreturned
    change ∃ i ∈ ((finalisePosted settings draws w.intentId clock).commit s.platform.db).tigerbeetleLedgerIntents.rows, _
    rw [commit_of_ok hpost]
    cases hnext
    obtain ⟨i, ⟨hposted, heffect⟩ | ⟨-, heffect⟩⟩ := finalisePosted_ok hpost
    · cases heffect with
      | unchanged hintent hid => exact ⟨i, hintent, hid, hposted⟩
    · obtain ⟨-, hid, hrow⟩ := heffect.row
      exact ⟨_, hrow, hid, rfl⟩
  case h_8 result' hsubmission => exact hw result (hsubmission.trans hreturned)
  case h_9 => cases hreturned
  case h_10 => exact hw result hreturned

/-- Every event keeps the workers truthful. -/
theorem truthful_step {s : Subledger} (hsound : s.Sound) (settings : Settings) (e : SubledgerEvent)
    (h : ∀ w ∈ s.workers, w.Truthful s) :
    ∀ w ∈ (subledgerStep settings s e).workers, w.Truthful (subledgerStep settings s e) := by
  have hgrows := (hsound.step settings e).2
  intro w hw
  cases e with
  | service e =>
    have hold : w ∈ s.workers := by
      cases e <;> exact hw
    exact (h w hold).mono hgrows
  | submit intentId =>
    obtain hold | hnew := List.mem_append.mp hw
    · exact (h w hold).mono hgrows
    · intro result hreturned
      rw [List.mem_singleton.mp hnew] at hreturned
      cases hreturned
  | foreign transfer => exact (h w hw).mono hgrows
  | worker index e =>
    unfold subledgerStep at hw hgrows ⊢
    dsimp only at hw hgrows ⊢
    split at hw
    · exact h w hw
    · rename_i acting hacting
      rw [hacting] at hgrows
      obtain hold | rfl := List.mem_or_eq_of_mem_set hw
      · exact (h w hold).mono hgrows
      · exact submit_truthful settings (h acting (List.mem_of_getElem? hacting)) e

/-- What a submission reports is so. After every interleaving of the services and any number of workers, with crashes and
lost answers anywhere, the intent of a worker that has returned is in the state that was reported, and an intent reported
as posted has its transfer in the external ledger. -/
theorem submission_reports_hold (settings : Settings) (companies : Table companySchema) (tariffs : Table tariffSchema)
    (events : List SubledgerEvent) :
    let s := run (subledgerStep settings) (.initial companies tariffs) events
    ∀ w ∈ s.workers, ∀ result, w.submission = .returned result →
      ∃ i ∈ s.intents, i.id = w.intentId ∧ result.Reports i ∧
        (result = .posted → ∃ t, s.external.get i.tigerbeetleTransferId = some t ∧ transferMatches i t = true) := by
  intro s w hw result hreturned
  have hinv := run_invariant (fun s : Subledger => s.Sound ∧ ∀ w ∈ s.workers, w.Truthful s)
    (fun s e h => ⟨(h.1.step settings e).1, truthful_step h.1 settings e h.2⟩) (.initial companies tariffs)
    ⟨.initial companies tariffs, fun w hw => by cases hw⟩ events
  obtain ⟨i, hi, hid, hreports⟩ := hinv.2 w hw result hreturned
  refine ⟨i, hi, hid, hreports, fun hposted => ?_⟩
  rw [hposted] at hreports
  exact hinv.1.confirmed i hi (.inr hreports)

/-! ### Recovery -/

/-- What an attempt takes from outside: the readings of the clock, the draws, and the timestamp under which the external
ledger stores a transfer that the attempt creates. -/
structure LoneAttempt where
  markClock : ℕ → Time
  timestamp : ℤ
  confirmDraws : Draws
  confirmClock : ℕ → Time
  finaliseDraws : Draws
  finaliseClock : ℕ → Time

/-- A new worker's attempt that nothing disturbs. After a lookup that finds the transfer, the creation and the second
lookup do not happen. -/
def LoneAttempt.events (a : LoneAttempt) (intentId : Uuid) (index : ℕ) : List SubledgerEvent :=
  [.submit intentId, .worker index (.mark a.markClock), .worker index (.lookup true),
    .worker index (.create true a.timestamp (some .created)), .worker index (.lookup true),
    .worker index (.confirm a.confirmDraws a.confirmClock), .worker index (.finalise a.finaliseDraws a.finaliseClock)]

/-- The transfer that the attempt observes: the one under the identifier of the intent, or the one it creates. -/
def Subledger.observes (s : Subledger) (i : TigerBeetleLedgerIntent) (a : LoneAttempt) : TigerBeetleTransfer :=
  (s.external.get i.tigerbeetleTransferId).getD { transferFromIntent i with timestamp := a.timestamp }

/-- What an attempt is granted from outside: counters that fit their columns, and an audit trail that takes the events of
its outcome. -/
structure LoneAttempt.Granted (settings : Settings) (s : Subledger) (i : TigerBeetleLedgerIntent) (a : LoneAttempt) : Prop where
  attempts : i.attemptCount + 1 < 2 ^ 31
  timestamp : bigint (s.observes i a).timestamp = true
  quarantined : transferMatches i (s.observes i a) = false → (recordEvents settings
    [(a.confirmDraws, stateRecord i.id .quarantined "tigerbeetle.intent.quarantined"
      [("external_timestamp", .int (s.observes i a).timestamp)], a.confirmClock 1)] s.platform.db).isOk = true
  posted : transferMatches i (s.observes i a) = true → (recordEvents settings
    [(a.confirmDraws, stateRecord i.id .externalConfirmed "tigerbeetle.intent.external_confirmed"
      [("external_timestamp", .int (s.observes i a).timestamp)], a.confirmClock 2),
     (a.finaliseDraws, stateRecord i.id .posted "tigerbeetle.intent.posted"
      [("external_timestamp", .int (s.observes i a).timestamp)], a.finaliseClock 2)] s.platform.db).isOk = true

/-- What the attempt comes to. -/
def Subledger.outcome (s : Subledger) (i : TigerBeetleLedgerIntent) (a : LoneAttempt) : SubmissionResult :=
  if i.state.finished then .terminal
  else if transferMatches i (s.observes i a) then .posted
  else .quarantined

/-- An unfinished intent whose attempt is announced awaits confirmation, as it did before or from now on. -/
theorem attempted_state {i : TigerBeetleLedgerIntent} (hunfinished : ¬i.state.finished) (now : Time) :
    (i.attempted now).state = .submissionUncertain ∨
      ((i.attempted now).state = .externalConfirmed ∧ i.state = .externalConfirmed) := by
  unfold TigerBeetleLedgerIntent.attempted
  cases hstate : i.state with
  | ready => exact .inl rfl
  | submissionUncertain => exact .inl rfl
  | externalConfirmed => exact .inr ⟨rfl, rfl⟩
  | posted => exact absurd (.inl hstate) hunfinished
  | rejected => exact absurd (.inr (.inl hstate)) hunfinished
  | quarantined => exact absurd (.inr (.inr hstate)) hunfinished

/-- An attempt on an unfinished intent is announced. -/
theorem markSubmissionUncertain_of_unfinished (hmem : intent ∈ db.tigerbeetleLedgerIntents.rows)
    (hunfinished : ¬intent.state.finished) (hattempts : intent.attemptCount + 1 < 2 ^ 31) (clock : ℕ → Time) :
    ∃ L : Table tigerbeetleLedgerIntentSchema, intent.attempted (clock 0) ∈ L.rows ∧
      markSubmissionUncertain intent.id clock db =
        .ok (some (intent.attempted (clock 0)), Tables.tigerbeetleLedgerIntents.set L db) := by
  have hkeeps : KeepsMaterial fun i => i.attempted (clock 0) :=
    ⟨fun _ => rfl, fun _ => rfl, fun _ => rfl, fun _ => rfl, fun _ => rfl⟩
  have hfits := ledgerIntent_fits hmem
  obtain ⟨L, hL, hset⟩ := hkeeps.setLedgerIntent hmem ⟨by
    have hcount := hfits.attempts.1
    have hlow : -2 ^ 31 ≤ intent.attemptCount + 1 := by omega
    exact ⟨Int.le_add_one hcount, Bool.and_eq_true_iff.mpr ⟨decide_eq_true hlow, decide_eq_true hattempts⟩⟩,
    hfits.timestamp, rfl⟩
  refine ⟨L, hL, ?_⟩
  simp only [markSubmissionUncertain, Tx.bind_ok]
  refine ⟨intent, db, lockLedgerIntent_of_mem hmem, ?_⟩
  rw [if_neg hunfinished]
  simp only [Tx.bind_ok, Tx.pure_ok]
  exact ⟨(), _, hset, trivial, rfl⟩

section Observed

variable {transfer : TigerBeetleTransfer} {events : Draws} {clock : ℕ → Time} (hmem : intent ∈ db'.tigerbeetleLedgerIntents.rows)
  (hsame : db'.auditEvents = db.auditEvents)
include hmem hsame

/-- A matching transfer confirms an intent that awaits confirmation, also for the second time. -/
theorem confirmOrQuarantine_of_awaiting {rest : List (Draws × AuditRecord × Time)}
    (hstate : intent.state = .submissionUncertain ∨ intent.state = .externalConfirmed)
    (hmatches : transferMatches intent transfer = true) (htimestamp : bigint transfer.timestamp = true)
    (hrecord : (recordEvents settings
      ((events, stateRecord intent.id .externalConfirmed "tigerbeetle.intent.external_confirmed"
        [("external_timestamp", .int transfer.timestamp)], clock 2) :: rest) db).isOk = true) :
    ∃ (L : Table tigerbeetleLedgerIntentSchema) (A : Table auditEventSchema) (i' : TigerBeetleLedgerIntent),
      i' ∈ L.rows ∧ i'.id = intent.id ∧ i'.state = .externalConfirmed ∧ i'.externalTimestamp = some transfer.timestamp ∧
      confirmOrQuarantine settings events intent.id transfer clock db' =
        .ok (true, Tables.auditEvents.set A (Tables.tigerbeetleLedgerIntents.set L db')) ∧
      (recordEvents settings rest (Tables.auditEvents.set A db)).isOk = true := by
  have hkeeps : KeepsMaterial fun i => i.confirmed transfer.timestamp (clock 0) (clock 1) :=
    ⟨fun _ => rfl, fun _ => rfl, fun _ => rfl, fun _ => rfl, fun _ => rfl⟩
  have hfits := ledgerIntent_fits hmem
  have hconfirmed : (intent.confirmed transfer.timestamp (clock 0) (clock 1)).state = .externalConfirmed := by
    obtain hstate | hstate := hstate <;> simp [TigerBeetleLedgerIntent.confirmed, hstate]
  obtain ⟨L, hL, hset⟩ := hkeeps.setLedgerIntent hmem ⟨hfits.attempts, htimestamp, hfits.error⟩
  obtain ⟨A, haudit, hrest⟩ := recordStateAudit_of_takes hrecord
    (show (Tables.tigerbeetleLedgerIntents.set L db').auditEvents = db.auditEvents from hsame)
  refine ⟨L, A, _, hL, rfl, hconfirmed, rfl, ?_, hrest⟩
  simp only [confirmOrQuarantine, Tx.bind_ok]
  refine ⟨intent, db', lockLedgerIntent_of_mem hmem, ?_⟩
  rw [if_pos hmatches, hconfirmed]
  simp only [Tx.bind_ok, Tx.pure_ok]
  exact ⟨(), _, hset, (), _, haudit, trivial, rfl⟩

/-- A differing transfer quarantines an intent that awaits confirmation. -/
theorem confirmOrQuarantine_of_mismatch (hstate : intent.state = .submissionUncertain)
    (hmismatch : transferMatches intent transfer = false)
    (hrecord : (recordEvents settings [(events, stateRecord intent.id .quarantined "tigerbeetle.intent.quarantined"
      [("external_timestamp", .int transfer.timestamp)], clock 1)] db).isOk = true) :
    ∃ after, confirmOrQuarantine settings events intent.id transfer clock db' = .ok (false, after) := by
  have hkeeps : KeepsMaterial fun i => i.quarantine (clock 0) :=
    ⟨fun _ => rfl, fun _ => rfl, fun _ => rfl, fun _ => rfl, fun _ => rfl⟩
  have hfits := ledgerIntent_fits hmem
  obtain ⟨L, hL, hset⟩ := hkeeps.setLedgerIntent hmem
    ⟨hfits.attempts, hfits.timestamp, by simp only [TigerBeetleLedgerIntent.quarantine]; decide⟩
  obtain ⟨A, haudit, -⟩ := recordStateAudit_of_takes hrecord
    (show (Tables.tigerbeetleLedgerIntents.set L db').auditEvents = db.auditEvents from hsame)
  refine ⟨Tables.auditEvents.set A (Tables.tigerbeetleLedgerIntents.set L db'), ?_⟩
  simp only [confirmOrQuarantine, Tx.bind_ok]
  refine ⟨intent, db', lockLedgerIntent_of_mem hmem, ?_⟩
  rw [if_neg (by rw [hmismatch]; decide)]
  simp only [Tx.bind_ok, assertLedgerTransition, Tx.require_ok, Tx.pure_ok]
  exact ⟨(), db', ⟨by rw [hstate]; decide, rfl⟩, (), _, hset, (), _, haudit, trivial, rfl⟩

end Observed

/-! ### Step by step -/

/-- Where a worker stands, over a database and an external ledger. -/
structure Subledger.At (s : Subledger) (index : ℕ) (w : LedgerWorker) (db : Db)
    (external : WriteOnce String TigerBeetleTransfer) : Prop where
  worker : s.workers[index]? = some w
  db : s.platform.db = db
  external : s.external = external

section Steps

variable (settings : Settings) {s : Subledger} {index : ℕ} {intentId : Uuid} {submission : Submission}
  {external : WriteOnce String TigerBeetleTransfer}

/-- A worker moves as its submission does. -/
theorem Subledger.At.step (h : s.At index ⟨intentId, submission⟩ db external) (e : WorkerEvent)
    {submission' : Submission} {external' : WriteOnce String TigerBeetleTransfer}
    (hsubmission : (submitIntentLookupBeforeRetry settings s ⟨intentId, submission⟩ e).2 = submission')
    (hdb : (submitIntentLookupBeforeRetry settings s ⟨intentId, submission⟩ e).1.platform.db = db')
    (hexternal : (submitIntentLookupBeforeRetry settings s ⟨intentId, submission⟩ e).1.external = external') :
    (subledgerStep settings s (.worker index e)).At index ⟨intentId, submission'⟩ db' external' := by
  have hlt : index < s.workers.length := (List.getElem?_eq_some_iff.mp h.worker).1
  unfold subledgerStep
  dsimp only
  rw [h.worker]
  refine ⟨?_, hdb, hexternal⟩
  rw [← hsubmission]
  exact List.getElem?_set_self hlt

/-- A worker that has come to its end stays there. -/
theorem Subledger.At.returned {result : SubmissionResult} (h : s.At index ⟨intentId, .returned result⟩ db external)
    (e : WorkerEvent) :
    (subledgerStep settings s (.worker index e)).At index ⟨intentId, .returned result⟩ db external :=
  h.step settings e rfl h.db h.external

/-- A transaction that succeeds moves the worker on and is committed. -/
theorem Subledger.At.mark (h : s.At index ⟨intentId, .starting⟩ db external) {clock : ℕ → Time}
    {found : Option TigerBeetleLedgerIntent} (hmark : markSubmissionUncertain intentId clock db = .ok (found, db')) :
    (subledgerStep settings s (.worker index (.mark clock))).At index ⟨intentId, match found with
      | some intent => .announced (transferFromIntent intent)
      | none => .returned .terminal⟩ db' external := by
  rw [← h.db] at hmark
  apply h.step settings
  · simp only [submitIntentLookupBeforeRetry, Submission.after, hmark]
    cases found <;> rfl
  · exact commit_of_ok hmark
  · exact h.external

/-- After the lookups and the creation between them, the worker has observed what the external ledger has under the
identifier, which is what it had before, or what the worker has created. -/
theorem Subledger.At.observe {expected : TigerBeetleTransfer} (h : s.At index ⟨intentId, .announced expected⟩ db external)
    (timestamp : ℤ) :
    let observed := (external.get expected.transferId).getD { expected with timestamp := timestamp }
    ∃ external', (run (subledgerStep settings) s [.worker index (.lookup true),
        .worker index (.create true timestamp (some .created)), .worker index (.lookup true)]).At index
        ⟨intentId, .observed observed⟩ db external' ∧
      external'.get expected.transferId = some observed := by
  cases hfound : external.get expected.transferId with
  | some transfer =>
    have hlooked : (subledgerStep settings s (.worker index (.lookup true))).At index ⟨intentId, .observed transfer⟩
        db external := by
      apply h.step settings
      · simp only [submitIntentLookupBeforeRetry, h.external, hfound, if_true]
      · exact h.db
      · exact h.external
    refine ⟨external, ?_, hfound⟩
    have hignored := hlooked.step settings (.create true timestamp (some .created)) rfl hlooked.db hlooked.external
    exact hignored.step settings (.lookup true) rfl hignored.db hignored.external
  | none =>
    have hlooked : (subledgerStep settings s (.worker index (.lookup true))).At index ⟨intentId, .absent expected⟩
        db external := by
      apply h.step settings
      · simp only [submitIntentLookupBeforeRetry, h.external, hfound, if_true]
      · exact h.db
      · exact h.external
    generalize hs₁ : subledgerStep settings s (.worker index (.lookup true)) = s₁ at hlooked
    have hfree : ¬(s₁.external.get expected.transferId).isSome = true := by
      rw [hlooked.external, hfound]
      decide
    have hcreated : (subledgerStep settings s₁ (.worker index (.create true timestamp (some .created)))).At index
        ⟨intentId, .created expected⟩ db (external.store expected.transferId { expected with timestamp := timestamp }) := by
      have hstore : s₁.store { expected with timestamp := timestamp } =
          { s₁ with external := s₁.external.store expected.transferId { expected with timestamp := timestamp },
                    caused := s₁.caused ++ [{ expected with timestamp := timestamp }] } := if_neg hfree
      apply hlooked.step settings
      · rfl
      · change (s₁.store { expected with timestamp := timestamp }).platform.db = db
        rw [hstore]
        exact hlooked.db
      · change (s₁.store { expected with timestamp := timestamp }).external = _
        rw [hstore, ← hlooked.external]
    refine ⟨external.store expected.transferId { expected with timestamp := timestamp }, ?_, WriteOnce.get_store_self hfound⟩
    simp only [run, List.foldl_cons, List.foldl_nil, hs₁]
    apply hcreated.step settings
    · simp only [submitIntentLookupBeforeRetry, hcreated.external, WriteOnce.get_store_self hfound, if_true]
      rfl
    · exact hcreated.db
    · exact hcreated.external

variable {settings}

/-- The observed transfer is confirmed or quarantined. -/
theorem Subledger.At.confirm {transfer : TigerBeetleTransfer} (h : s.At index ⟨intentId, .observed transfer⟩ db external)
    {draws : Draws} {clock : ℕ → Time} {confirmed : Bool}
    (hconfirm : confirmOrQuarantine settings draws intentId transfer clock db = .ok (confirmed, db')) :
    (subledgerStep settings s (.worker index (.confirm draws clock))).At index
      ⟨intentId, if confirmed then .confirmed else .returned .quarantined⟩ db' external := by
  rw [← h.db] at hconfirm
  apply h.step settings
  · simp only [submitIntentLookupBeforeRetry, Submission.after, hconfirm]
  · exact commit_of_ok hconfirm
  · exact h.external

/-- The confirmed intent is posted. -/
theorem Subledger.At.finalise (h : s.At index ⟨intentId, .confirmed⟩ db external) {draws : Draws} {clock : ℕ → Time}
    (hpost : finalisePosted settings draws intentId clock db = .ok ((), db')) :
    (subledgerStep settings s (.worker index (.finalise draws clock))).At index ⟨intentId, .returned .posted⟩ db' external := by
  rw [← h.db] at hpost
  apply h.step settings
  · simp only [submitIntentLookupBeforeRetry, Submission.after, hpost]
  · exact commit_of_ok hpost
  · exact h.external

/-- A finished intent ends the submission at once. -/
theorem markSubmissionUncertain_of_finished (hmem : intent ∈ db.tigerbeetleLedgerIntents.rows)
    (hfinished : intent.state.finished) (clock : ℕ → Time) :
    markSubmissionUncertain intent.id clock db = .ok (none, db) := by
  simp only [markSubmissionUncertain, Tx.bind_ok]
  refine ⟨intent, db, lockLedgerIntent_of_mem hmem, ?_⟩
  rw [if_pos hfinished]
  rfl

/-- A worker that has observed a transfer comes to its end with its two transactions. -/
theorem Subledger.At.close {transfer : TigerBeetleTransfer} (hmem : intent ∈ db'.tigerbeetleLedgerIntents.rows)
    (hsame : db'.auditEvents = db.auditEvents) (h : s.At index ⟨intent.id, .observed transfer⟩ db' external) (a : LoneAttempt)
    (hstate : intent.state = .submissionUncertain ∨
      (intent.state = .externalConfirmed ∧ transferMatches intent transfer = true))
    (htimestamp : bigint transfer.timestamp = true)
    (hquarantined : transferMatches intent transfer = false → (recordEvents settings
      [(a.confirmDraws, stateRecord intent.id .quarantined "tigerbeetle.intent.quarantined"
        [("external_timestamp", .int transfer.timestamp)], a.confirmClock 1)] db).isOk = true)
    (hposted : transferMatches intent transfer = true → (recordEvents settings
      [(a.confirmDraws, stateRecord intent.id .externalConfirmed "tigerbeetle.intent.external_confirmed"
        [("external_timestamp", .int transfer.timestamp)], a.confirmClock 2),
       (a.finaliseDraws, stateRecord intent.id .posted "tigerbeetle.intent.posted"
        [("external_timestamp", .int transfer.timestamp)], a.finaliseClock 2)] db).isOk = true) :
    ∃ after, (run (subledgerStep settings) s [.worker index (.confirm a.confirmDraws a.confirmClock),
        .worker index (.finalise a.finaliseDraws a.finaliseClock)]).At index
      ⟨intent.id, .returned (if transferMatches intent transfer then .posted else .quarantined)⟩ after external := by
  cases hmatches : transferMatches intent transfer with
  | true =>
    obtain ⟨L, A, i', hL, hid, hconfirmed, htime, hconfirm, hrest⟩ := confirmOrQuarantine_of_awaiting hmem hsame
      (hstate.imp id And.left) hmatches htimestamp (hposted hmatches)
    have hmoved := h.confirm hconfirm
    -- The second transaction starts from the confirmed intent and the first event.
    have hmem' : i' ∈ (Tables.auditEvents.set A (Tables.tigerbeetleLedgerIntents.set L db')).tigerbeetleLedgerIntents.rows := hL
    rw [← hid] at hrest
    obtain ⟨after, hpost⟩ := finalisePosted_of_confirmed hmem' hconfirmed htime
      (show _ = (Tables.auditEvents.set A db).auditEvents from rfl) hrest
    rw [hid] at hpost
    exact ⟨after, hmoved.finalise hpost⟩
  | false =>
    have huncertain : intent.state = .submissionUncertain := by
      apply hstate.resolve_right
      intro hconfirmed
      rw [hmatches] at hconfirmed
      cases hconfirmed.2
    obtain ⟨after, hconfirm⟩ := confirmOrQuarantine_of_mismatch hmem hsame huncertain hmatches (hquarantined hmatches)
    exact ⟨after, (h.confirm hconfirm).returned settings _⟩

end Steps

/-- In a sound subledger an undisturbed attempt comes to its end, with the outcome that the external ledger decides. -/
theorem Subledger.Sound.recovers {s : Subledger} (h : s.Sound) {i : TigerBeetleLedgerIntent} {a : LoneAttempt}
    (hi : i ∈ s.intents) (hgranted : a.Granted settings s i) :
    ∃ db' external', (run (subledgerStep settings) s (a.events i.id s.workers.length)).At s.workers.length
        ⟨i.id, .returned (s.outcome i a)⟩ db' external' ∧
      (¬i.state.finished → external'.get i.tigerbeetleTransferId = some (s.observes i a)) ∧
      (i.state.finished → i ∈ db'.tigerbeetleLedgerIntents.rows) := by
  generalize hstart : ({ s with workers := s.workers ++ [⟨i.id, .starting⟩] } : Subledger) = s₀
  have hsubmitted : s₀.At s.workers.length ⟨i.id, .starting⟩ s.platform.db s.external := by
    rw [← hstart]
    exact ⟨List.getElem?_concat_length, rfl, rfl⟩
  have hevents : run (subledgerStep settings) s (a.events i.id s.workers.length) =
      run (subledgerStep settings) (run (subledgerStep settings) (subledgerStep settings s₀
        (.worker s.workers.length (.mark a.markClock))) [.worker s.workers.length (.lookup true),
        .worker s.workers.length (.create true a.timestamp (some .created)), .worker s.workers.length (.lookup true)])
        [.worker s.workers.length (.confirm a.confirmDraws a.confirmClock),
          .worker s.workers.length (.finalise a.finaliseDraws a.finaliseClock)] := by
    rw [← hstart]
    rfl
  rw [hevents]
  by_cases hfinished : i.state.finished
  · have hmarked := hsubmitted.mark settings (markSubmissionUncertain_of_finished hi hfinished a.markClock)
    rw [Subledger.outcome, if_pos hfinished]
    have hlooked := ((hmarked.returned settings (.lookup true)).returned settings
      (.create true a.timestamp (some .created))).returned settings (.lookup true)
    have hclosed := (hlooked.returned settings (.confirm a.confirmDraws a.confirmClock)).returned settings
      (.finalise a.finaliseDraws a.finaliseClock)
    exact ⟨_, _, hclosed, fun hunfinished => absurd hfinished hunfinished, fun _ => hi⟩
  · obtain ⟨L, hL, hmark⟩ := markSubmissionUncertain_of_unfinished hi hfinished hgranted.attempts a.markClock
    have hmarked := hsubmitted.mark settings hmark
    obtain ⟨external', hobserved, hheld⟩ := hmarked.observe settings a.timestamp
    have hstate : (i.attempted (a.markClock 0)).state = .submissionUncertain ∨
        ((i.attempted (a.markClock 0)).state = .externalConfirmed ∧
          transferMatches (i.attempted (a.markClock 0)) (s.observes i a) = true) := by
      apply (attempted_state hfinished (a.markClock 0)).imp id
      intro ⟨hconfirmed, hwas⟩
      refine ⟨hconfirmed, ?_⟩
      obtain ⟨t, hget, hmatches⟩ := h.confirmed i hi (.inl hwas)
      rw [Subledger.observes, hget]
      exact hmatches
    have hmem : i.attempted (a.markClock 0) ∈
        (Tables.tigerbeetleLedgerIntents.set L s.platform.db).tigerbeetleLedgerIntents.rows := hL
    have hsame : (Tables.tigerbeetleLedgerIntents.set L s.platform.db).auditEvents = s.platform.db.auditEvents := rfl
    obtain ⟨after, hclosed⟩ := Subledger.At.close hmem hsame hobserved a hstate hgranted.timestamp
      hgranted.quarantined hgranted.posted
    refine ⟨after, external', ?_, fun _ => hheld, fun h => absurd h hfinished⟩
    rw [Subledger.outcome, if_neg hfinished]
    exact hclosed

/-- Submissions recover. Whatever interleaving of the services and any number of workers has led to, with crashes and
lost answers anywhere, one more attempt on an intent that nothing disturbs comes to its end. A finished intent stays as
it was. An unfinished one is posted with the transfer that the external ledger holds under its identifier, which
the attempt has put there if there was none, and it is quarantined exactly when that transfer differs. -/
theorem submission_recovers (settings : Settings) (companies : Table companySchema) (tariffs : Table tariffSchema)
    (events : List SubledgerEvent) (i : TigerBeetleLedgerIntent) (a : LoneAttempt)
    (hi : i ∈ (run (subledgerStep settings) (.initial companies tariffs) events).intents)
    (hgranted : a.Granted settings (run (subledgerStep settings) (.initial companies tariffs) events) i) :
    let s := run (subledgerStep settings) (.initial companies tariffs) events
    let s' := run (subledgerStep settings) s (a.events i.id s.workers.length)
    s'.workers[s.workers.length]? = some ⟨i.id, .returned (s.outcome i a)⟩ ∧
      (¬i.state.finished → s'.external.get i.tigerbeetleTransferId = some (s.observes i a)) ∧
      ∃ i' ∈ s'.intents, i'.id = i.id ∧ (s.outcome i a).Reports i' ∧ (i.state.finished → i' = i) := by
  intro s s'
  have hstep : ∀ (s : Subledger) (e : SubledgerEvent), (s.Sound ∧ ∀ w ∈ s.workers, w.Truthful s) →
      (subledgerStep settings s e).Sound ∧ ∀ w ∈ (subledgerStep settings s e).workers, w.Truthful (subledgerStep settings s e) :=
    fun s e h => ⟨(h.1.step settings e).1, truthful_step h.1 settings e h.2⟩
  have hinv := run_invariant (fun s : Subledger => s.Sound ∧ ∀ w ∈ s.workers, w.Truthful s) hstep (.initial companies tariffs)
    ⟨.initial companies tariffs, fun w hw => by cases hw⟩ events
  have hinv' := run_invariant (fun s : Subledger => s.Sound ∧ ∀ w ∈ s.workers, w.Truthful s) hstep _ hinv
    (a.events i.id s.workers.length)
  obtain ⟨db', external', hat, hheld, hkept⟩ := hinv.1.recovers hi hgranted
  refine ⟨hat.worker, ?_, ?_⟩
  · intro hunfinished
    rw [hat.external]
    exact hheld hunfinished
  · by_cases hfinished : i.state.finished
    · have hi' : i ∈ s'.platform.db.tigerbeetleLedgerIntents.rows := by
        rw [hat.db]
        exact hkept hfinished
      have hreports : (s.outcome i a).Reports i := by
        rw [Subledger.outcome, if_pos hfinished]
        exact hfinished
      exact ⟨i, hi', rfl, hreports, fun _ => rfl⟩
    · obtain ⟨i', hi', hid, hreports⟩ := hinv'.2 _ (List.mem_of_getElem? hat.worker) _ rfl
      exact ⟨i', hi', hid, hreports, fun h => absurd h hfinished⟩

/-- A worker has created the transfer of the sample intent and died before the answer. -/
def sampleInterrupted : List SubledgerEvent :=
  sampleRequested.map .service ++ [.submit ⟨400⟩, .worker 0 (.mark fun _ => sampleNow), .worker 0 (.lookup true),
    .worker 0 (.create true 123456 none)]

/-- The attempt after it. -/
def sampleAttempt : LoneAttempt := ⟨fun _ => sampleNow, 7, sampleDraws 5, fun _ => sampleNow, sampleDraws 6, fun _ => sampleNow⟩

/-- The next worker finds the transfer and posts the sample intent. -/
theorem submission_recovers_sample :
    let s := run (subledgerStep sampleLedgerSettings) (.initial sampleCompanies sampleTariffs) sampleInterrupted
    let s' := run (subledgerStep sampleLedgerSettings) s (sampleAttempt.events ⟨400⟩ 1)
    s'.workers[1]? = some ⟨⟨400⟩, .returned .posted⟩ ∧ ∃ i ∈ s'.intents, i.state = .posted := by
  have hrecovers := submission_recovers sampleLedgerSettings sampleCompanies sampleTariffs sampleInterrupted
  have hready :
      let s := run (subledgerStep sampleLedgerSettings) (.initial sampleCompanies sampleTariffs) sampleInterrupted
      ∃ i ∈ s.intents, i.id = ⟨400⟩ ∧ s.workers.length = 1 ∧ s.outcome i sampleAttempt = .posted ∧
        i.attemptCount + 1 < 2 ^ 31 ∧ s.observes i sampleAttempt = { transferFromIntent i with timestamp := 123456 } ∧
        (recordEvents sampleLedgerSettings
          [(sampleDraws 5, stateRecord i.id .externalConfirmed "tigerbeetle.intent.external_confirmed"
            [("external_timestamp", .int 123456)], sampleNow),
           (sampleDraws 6, stateRecord i.id .posted "tigerbeetle.intent.posted"
            [("external_timestamp", .int 123456)], sampleNow)] s.platform.db).isOk = true := by
    decide +kernel
  generalize run (subledgerStep sampleLedgerSettings) (.initial sampleCompanies sampleTariffs) sampleInterrupted = s
    at hrecovers hready ⊢
  obtain ⟨i, hi, hid, hworkers, houtcome, hattempts, hobserves, hrecords⟩ := hready
  have hmatches : transferMatches i (s.observes i sampleAttempt) = true := by
    rw [hobserves]
    exact transferMatches_from i 123456
  have hgranted : sampleAttempt.Granted sampleLedgerSettings s i := by
    constructor
    · exact hattempts
    · rw [hobserves]
      rfl
    · rw [hmatches]
      intro hmismatch
      cases hmismatch
    · rw [hobserves]
      exact fun _ => hrecords
  obtain ⟨hreturned, -, i', hi', -, hreports, -⟩ := hrecovers i sampleAttempt hi hgranted
  rw [hid, hworkers] at hi' hreturned
  rw [houtcome] at hreturned hreports
  exact ⟨hreturned, i', hi', hreports⟩

end TaxStamp
