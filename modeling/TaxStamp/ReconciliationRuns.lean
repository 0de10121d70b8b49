import TaxStamp.Acceptance
import TaxStamp.ExternalSettlements
import TaxStamp.FalseAlarms

/-!
# Reconciliation runs

A reconciliation collects the findings of its checks, compares the exports of the external
settlement systems and records the run. The checks of the outbox and of the ledger intents
look at the age of rows, which the database stamps with its own clock when it inserts them.
In the platform's own operation only these two checks and the exports can find anything.
-/

namespace TaxStamp

open Lib

/-- The times at which the database has inserted the rows that are checked for their age. -/
structure CreationTimes where
  outboxMessage : Uuid → Time
  ledgerIntent : Uuid → Time

/-- The report of a run. -/
structure ReconciliationReport where
  findings : List Finding
  checksRun : ℕ

/-- Nothing was found. -/
def ReconciliationReport.clean (report : ReconciliationReport) : Bool := report.findings.isEmpty

/-- The report as a document. -/
def ReconciliationReport.asDocument (report : ReconciliationReport) : JsonObject :=
  [("clean", .bool report.clean), ("checks_run", .int report.checksRun),
    ("findings", .arr (report.findings.map fun finding =>
      .obj [("kind", .str finding.kind), ("count", .int finding.count), ("detail", .obj finding.detail)]))]

/-- The record of a run. -/
structure ReconciliationRun where
  kind : String
  startedAt : Time
  finishedAt : Option Time
  status : String
  findings : JsonObject

/-- The record of a run with its report. -/
def ReconciliationReport.row (report : ReconciliationReport) (now : Time) : ReconciliationRun :=
  ⟨"full", now, some now, if report.clean then "clean" else "findings", report.asDocument⟩

/-- The constraints of `reconciliation_runs`. Its primary key is left out: nothing refers to a run, and no other column
of the table is unique. -/
def reconciliationRunSchema : Schema ReconciliationRun where
  fits r := varchar 64 r.kind && varchar 16 r.status && jsonb (.obj r.findings)
  check r := r.status ∈ ["clean", "findings", "error"]
  clash _ _ := false
  clash_comm _ _ := rfl

/-- The messages that have failed for good. -/
def deadMessages (db : Db) : List OutboxMessage := db.outboxMessages.rows.filter fun m => m.deadLetteredAt.isSome

/-- The messages that have been waiting for too long. -/
def staleMessages (times : CreationTimes) (cutoff : Time) (db : Db) : List OutboxMessage :=
  db.outboxMessages.rows.filter fun m =>
    m.processedAt.isNone && m.deadLetteredAt.isNone && times.outboxMessage m.id < cutoff

/-- Report messages that have failed for good or have been waiting for too long. -/
def outboxHealth (times : CreationTimes) (now : Time) (staleAfterSeconds : ℤ) (db : Db) : Except Fault (Option Finding) := do
  let dead := (deadMessages db).length
  let cutoff ← Time.add now (-seconds staleAfterSeconds)
  let stale := (staleMessages times cutoff db).length
  if dead = 0 ∧ stale = 0 then return none
  else return some ⟨"outbox_backlog", dead + stale, [("dead_lettered", .int dead), ("stale", .int stale)]⟩

/-- The states of a ledger intent that is still being worked on. -/
def staleStates : List TigerBeetleLedgerIntentState := [.ready, .submissionUncertain, .externalConfirmed]

/-- A ledger intent that is quarantined, or has been worked on for too long. -/
def TigerBeetleLedgerIntent.isStuck (times : CreationTimes) (cutoff : Time) (i : TigerBeetleLedgerIntent) : Bool :=
  i.state = .quarantined || (i.state ∈ staleStates && times.ledgerIntent i.id < cutoff)

/-- Report the oldest ledger intents that are quarantined or have been worked on for too long. -/
def tigerbeetleIntentHealth (times : CreationTimes) (now : Time) (staleAfterSeconds : ℤ) (db : Db) :
    Except Fault (Option Finding) := do
  let cutoff ← Time.add now (-seconds staleAfterSeconds)
  let rows := (db.tigerbeetleLedgerIntents.rows.filter fun i => i.isStuck times cutoff).insertionSort fun a b =>
    times.ledgerIntent a.id ≤ times.ledgerIntent b.id
  return Finding.ofRows "tigerbeetle_intent_control_failure" (rows.take 50) fun rows =>
    [("states", .obj ((groups (fun i => i.state.value) rows).map fun group => (group.1, .int group.2.length))),
      ("intent_ids", .arr (rows.map fun i => .str i.id.str))]

/-- Run all checks, compare the exports and record the run. -/
def runReconciliation (settings : Settings) (times : CreationTimes) (now : Time) (outboxStaleAfterSeconds : ℤ)
    (snapshots : List ExternalSettlement) (providers : List SettlementProvider) :
    Session (ReconciliationReport × ReconciliationRun) := do
  let conservation ← settlementConservation
  let db ← Tx.read fun db => db
  let outbox ← Tx.lift (outboxHealth times now outboxStaleAfterSeconds db)
  let intents ← Tx.lift (tigerbeetleIntentHealth times now outboxStaleAfterSeconds db)
  let audit ← Tx.lift (auditChain settings db)
  let checks := [unbalancedJournalFinding db, conservation, settledOrdersWithoutMatchingReceipt db,
    settledIntentsWithoutPaidOrder db, issuanceCountMismatch db, duplicateSerials db, outbox, intents, audit]
  let externalFindings := externalSettlementFindings db snapshots providers
  let report : ReconciliationReport :=
    ⟨checks.reduceOption ++ externalFindings, checks.length + if providers.isEmpty then 0 else 1⟩
  Tx.require (reconciliationRunSchema.fits (report.row now) = true) .dataError
  return (report, report.row now)

/-! ### What a run can find -/

/-- The outbox has a message that has failed for good or has been waiting for too long. -/
def Backlogged (times : CreationTimes) (cutoff : Time) (db : Db) : Prop :=
  ∃ m ∈ db.outboxMessages.rows, m.deadLetteredAt.isSome = true ∨
    (m.processedAt = none ∧ m.deadLetteredAt = none ∧ times.outboxMessage m.id < cutoff)

/-- A ledger intent is quarantined or has been worked on for too long. -/
def Stuck (times : CreationTimes) (cutoff : Time) (db : Db) : Prop :=
  ∃ i ∈ db.tigerbeetleLedgerIntents.rows,
    i.state = .quarantined ∨ (i.state ∈ staleStates ∧ times.ledgerIntent i.id < cutoff)

section Checks

variable {settings : Settings} {times : CreationTimes} {now cutoff : Time} {staleAfterSeconds : ℤ} {db : Db}

/-- No message is dead or stale exactly when there is no backlog. -/
theorem messages_nil_iff : deadMessages db = [] ∧ staleMessages times cutoff db = [] ↔ ¬Backlogged times cutoff db := by
  simp only [deadMessages, staleMessages, Backlogged, List.filter_eq_nil_iff, not_exists, not_and, not_or]
  constructor
  · intro h m hm
    refine ⟨h.1 m hm, fun hprocessed hdead hstale => h.2 m hm ?_⟩
    simp [hprocessed, hdead, hstale]
  · intro h
    refine ⟨fun m hm => (h m hm).1, fun m hm hstale => ?_⟩
    simp only [Bool.and_eq_true, Option.isNone_iff_eq_none, decide_eq_true_eq] at hstale
    exact (h m hm).2 hstale.1.1 hstale.1.2 hstale.2

/-- Within the calendar the check of the outbox returns, with a finding exactly when there is a backlog. -/
theorem outboxHealth_ok (hadd : Time.add now (-seconds staleAfterSeconds) = .ok cutoff) :
    ∃ finding, outboxHealth times now staleAfterSeconds db = .ok finding ∧
      (finding = none ↔ ¬Backlogged times cutoff db) := by
  simp only [outboxHealth, hadd, Except.bind_ok, Except.ok.injEq, exists_eq_left', List.length_eq_zero_iff]
  rw [← messages_nil_iff]
  split
  · rename_i hnone
    exact ⟨none, rfl, iff_of_true rfl hnone⟩
  · rename_i hsome
    exact ⟨_, rfl, iff_of_false (fun h => by cases h) hsome⟩

/-- A check reports its rows exactly when there are any. -/
theorem Finding.ofRows_eq_none {α : Type} {kind : String} {rows : List α} {detail : List α → JsonObject} :
    Finding.ofRows kind rows detail = none ↔ rows = [] := by
  rw [Finding.ofRows, ← List.isEmpty_iff]
  cases rows.isEmpty <;> simp

/-- Within the calendar the check of the ledger intents returns, with a finding exactly when one is stuck. -/
theorem tigerbeetleIntentHealth_ok (hadd : Time.add now (-seconds staleAfterSeconds) = .ok cutoff) :
    ∃ finding, tigerbeetleIntentHealth times now staleAfterSeconds db = .ok finding ∧
      (finding = none ↔ ¬Stuck times cutoff db) := by
  simp only [tigerbeetleIntentHealth, hadd, Except.bind_ok, Except.ok.injEq, exists_eq_left']
  refine ⟨_, rfl, ?_⟩
  rw [Finding.ofRows_eq_none, List.take_eq_nil_iff, or_iff_right (by decide), ← List.length_eq_zero_iff,
    List.length_insertionSort, List.length_eq_zero_iff, List.filter_eq_nil_iff, Stuck]
  simp only [TigerBeetleLedgerIntent.isStuck, Bool.or_eq_true, Bool.and_eq_true, decide_eq_true_eq, not_exists, not_and]

/-- An intact chain is not reported. -/
theorem auditChain_none (hchained : Chained settings db.auditEvents.rows) : auditChain settings db = .ok none := by
  rw [auditChain, hchained.verify]
  rfl

/-- Nothing occurs in an array when it occurs in none of its items. -/
theorem occursItem_eq_false {p : Json → Bool} {items : List Json} (h : ∀ item ∈ items, item.occurs p = false) :
    Json.occursItem p items = false := by
  induction items with
  | nil => rfl
  | cons item rest ih =>
    rw [Json.occursItem, h item List.mem_cons_self, ih fun other hother => h other (List.mem_cons_of_mem item hother)]
    rfl

/-- Nothing occurs in an object when it occurs in none of its keys and values. -/
theorem occursField_eq_false {p : Json → Bool} {fields : JsonObject}
    (h : ∀ field ∈ fields, p (.str field.1) = false ∧ field.2.occurs p = false) : Json.occursField p fields = false := by
  induction fields with
  | nil => rfl
  | cons field rest ih =>
    obtain ⟨hkey, hvalue⟩ := h field List.mem_cons_self
    rw [Json.occursField, hkey, hvalue, ih fun other hother => h other (List.mem_cons_of_mem field hother)]
    rfl

/-- The database can store what the finding says. -/
structure Finding.Storable (finding : Finding) : Prop where
  kind : '\x00' ∉ finding.kind.toList
  detail : jsonb (.obj finding.detail) = true

/-- The record of a run with storable findings fits. -/
theorem fits_of_storable {report : ReconciliationReport} (h : ∀ finding ∈ report.findings, finding.Storable) :
    reconciliationRunSchema.fits (report.row now) = true := by
  have hkind : varchar 64 "full" = true := by decide
  have hstatus : varchar 16 (if report.clean = true then "clean" else "findings") = true := by
    split <;> decide
  have hfindings : Json.occursItem Json.isNulText (report.findings.map fun finding =>
      .obj [("kind", .str finding.kind), ("count", .int finding.count), ("detail", .obj finding.detail)]) = false := by
    apply occursItem_eq_false
    intro item hitem
    obtain ⟨finding, hfinding, rfl⟩ := List.mem_map.mp hitem
    obtain ⟨hnul, hdetail⟩ := h finding hfinding
    have hfields : Json.occursField Json.isNulText finding.detail = false := by
      simpa [jsonb, Json.occurs, Json.isNulText] using hdetail
    simp [Json.occurs, Json.occursField, Json.isNulText, hnul, hfields]
  simp [reconciliationRunSchema, ReconciliationReport.row, ReconciliationReport.asDocument, jsonb, Json.occurs,
    Json.occursField, Json.isNulText, hkind, hstatus, hfindings]

/-- The finding of the outbox check can be stored. -/
theorem outboxHealth_storable {finding : Finding} (h : outboxHealth times now staleAfterSeconds db = .ok (some finding)) :
    finding.Storable := by
  rw [outboxHealth, Except.bind_ok] at h
  obtain ⟨cutoff, -, h⟩ := h
  dsimp only at h
  split at h
  · cases h
  · obtain rfl := Option.some.inj (Except.ok.inj h)
    refine ⟨?_, by simp [jsonb, Json.occurs, Json.occursField, Json.isNulText]⟩
    change '\x00' ∉ "outbox_backlog".toList
    decide

/-- The finding of the check of the ledger intents can be stored. -/
theorem tigerbeetleIntentHealth_storable {finding : Finding}
    (h : tigerbeetleIntentHealth times now staleAfterSeconds db = .ok (some finding)) : finding.Storable := by
  rw [tigerbeetleIntentHealth, Except.bind_ok] at h
  obtain ⟨cutoff, -, h⟩ := h
  have h := Except.ok.inj h
  rw [Finding.ofRows] at h
  split at h
  · cases h
  · obtain rfl := Option.some.inj h
    constructor
    · change '\x00' ∉ "tigerbeetle_intent_control_failure".toList
      decide
    · generalize List.take 50 _ = rows
      have hstates : Json.occursField Json.isNulText
          ((groups (fun i : TigerBeetleLedgerIntent => i.state.value) rows).map fun group => (group.1, .int group.2.length)) =
            false := by
        apply occursField_eq_false
        intro field hfield
        obtain ⟨group, hgroup, rfl⟩ := List.mem_map.mp hfield
        obtain ⟨i, -, hstate⟩ := mem_keysOf.mp (mem_groups hgroup).1
        refine ⟨?_, rfl⟩
        change Json.isNulText (.str group.1) = false
        rw [← hstate]
        cases i.state <;> decide
      have hids : Json.occursItem Json.isNulText (rows.map fun i => .str i.id.str) = false := by
        apply occursItem_eq_false
        intro item hitem
        obtain ⟨i, -, rfl⟩ := List.mem_map.mp hitem
        simp [Json.occurs, Json.isNulText, Uuid.nul_not_mem_str]
      simp [jsonb, Json.occurs, Json.occursField, Json.isNulText, hstates, hids]

end Checks

/-- What a run on sound records reports: what the two checks of ages and the comparison of the exports find. -/
structure Reported (times : CreationTimes) (now : Time) (staleAfterSeconds : ℤ) (snapshots : List ExternalSettlement)
    (providers : List SettlementProvider) (db : Db) (report : ReconciliationReport) : Prop where
  findings : ∃ outbox intents, outboxHealth times now staleAfterSeconds db = .ok outbox ∧
    tigerbeetleIntentHealth times now staleAfterSeconds db = .ok intents ∧
    report.findings = [outbox, intents].reduceOption ++ externalSettlementFindings db snapshots providers
  checksRun : report.checksRun = 9 + if providers.isEmpty then 0 else 1
  recorded : reconciliationRunSchema.fits (report.row now) = true

section Runs

variable {settings : Settings} {times : CreationTimes} {now cutoff : Time} {staleAfterSeconds : ℤ} {db db' : Db}
  {snapshots : List ExternalSettlement} {providers : List SettlementProvider} {report : ReconciliationReport}
  {row : ReconciliationRun}

/-- On sound records a run reports what its checks of ages and its comparison find, and changes nothing else. -/
theorem runReconciliation_ok (hsound : Sound settings db) :
    runReconciliation settings times now staleAfterSeconds snapshots providers db = .ok ((report, row), db') ↔
      Reported times now staleAfterSeconds snapshots providers db report ∧ row = report.row now ∧ db' = db := by
  have hjournals := unbalancedJournalFinding_none hsound.reconciled hsound.conserved
  have hconservation := settlementConservation_none hsound.conserved hsound.supported
  have hpaid := settledOrdersWithoutMatchingReceipt_none hsound.reconciled
  have hsettled := settledIntentsWithoutPaidOrder_none hsound.reconciled
  have hissuance := issuanceCountMismatch_none hsound.counted
  have hserials := duplicateSerials_none db
  have haudit := auditChain_none hsound.chained
  simp only [runReconciliation, Tx.bind_of_ok _ hconservation]
  simp only [Tx.bind_ok, Tx.read_ok, Tx.lift_ok, Tx.require_ok, Tx.pure_ok]
  constructor
  · intro h
    obtain ⟨read, db₁, ⟨rfl, rfl⟩, outbox, db₂, ⟨houtbox, rfl⟩, intents, db₃, ⟨hintents, rfl⟩, audit, db₄, ⟨hnone, rfl⟩, -,
      db₅, ⟨hfits, rfl⟩, hresult, rfl⟩ := h
    injection hresult with hreport hrow
    rw [← hreport] at hfits hrow
    obtain rfl : audit = none := Except.ok.inj (hnone.symm.trans haudit)
    refine ⟨⟨⟨outbox, intents, houtbox, hintents, ?_⟩, ?_, hfits⟩, hrow, rfl⟩
    · rw [hreport, hjournals, hpaid, hsettled, hissuance, hserials]
      cases outbox <;> cases intents <;> rfl
    · rw [hreport]
      rfl
  · intro h
    obtain ⟨⟨⟨outbox, intents, houtbox, hintents, hfindings⟩, hchecks, hfits⟩, rfl, rfl⟩ := h
    have hreport : report = ⟨[unbalancedJournalFinding db', none, settledOrdersWithoutMatchingReceipt db',
        settledIntentsWithoutPaidOrder db', issuanceCountMismatch db', duplicateSerials db', outbox, intents,
        none].reduceOption ++ externalSettlementFindings db' snapshots providers,
        9 + if providers.isEmpty then 0 else 1⟩ := by
      rw [← hchecks, hjournals, hpaid, hsettled, hissuance, hserials]
      cases outbox <;> cases intents <;> exact congrArg (ReconciliationReport.mk · _) hfindings
    refine ⟨db', db', ⟨rfl, rfl⟩, outbox, db', ⟨houtbox, rfl⟩, intents, db', ⟨hintents, rfl⟩, none, db', ⟨haudit, rfl⟩, (),
      db', ⟨?_, rfl⟩, ?_, rfl⟩
    · rw [hreport] at hfits
      exact hfits
    · rw [hreport]
      rfl

/-- On sound records a run is clean exactly when nothing has waited for too long and the exports agree. -/
theorem runReconciliation_clean (hsound : Sound settings db) (hadd : Time.add now (-seconds staleAfterSeconds) = .ok cutoff) :
    (∃ result, runReconciliation settings times now staleAfterSeconds snapshots providers db = .ok (result, db) ∧
        result.1.clean = true) ↔
      ¬Backlogged times cutoff db ∧ ¬Stuck times cutoff db ∧ ∀ provider ∈ providers,
        Agrees (expectedSettlements db) (rowsOf ExternalSettlement.provider provider snapshots) := by
  obtain ⟨outbox, houtbox, hbacklog⟩ := @outboxHealth_ok times now cutoff staleAfterSeconds db hadd
  obtain ⟨intents, hintents, hstuck⟩ := @tigerbeetleIntentHealth_ok times now cutoff staleAfterSeconds db hadd
  rw [← hbacklog, ← hstuck, ← externalSettlementFindings_eq_nil_iff]
  constructor
  · intro h
    obtain ⟨⟨report, row⟩, hrun, hclean⟩ := h
    obtain ⟨⟨⟨outbox', intents', houtbox', hintents', hfindings⟩, -, -⟩, -, -⟩ := (runReconciliation_ok hsound).mp hrun
    obtain rfl : outbox' = outbox := Except.ok.inj (houtbox'.symm.trans houtbox)
    obtain rfl : intents' = intents := Except.ok.inj (hintents'.symm.trans hintents)
    rw [List.isEmpty_iff.mp hclean, eq_comm, List.append_eq_nil_iff] at hfindings
    cases outbox' <;> cases intents' <;> simp_all [List.reduceOption]
  · intro h
    obtain ⟨rfl, rfl, hexternal⟩ := h
    refine ⟨(⟨[], _⟩, _), (runReconciliation_ok hsound).mpr ⟨⟨⟨none, none, houtbox, hintents, ?_⟩, rfl, fits_of_storable (by simp)⟩,
      rfl, rfl⟩, rfl⟩
    rw [hexternal]
    rfl

/-- The cutoff can be computed exactly within the calendar. -/
theorem cutoff_ok : Time.add now (-seconds staleAfterSeconds) = .ok (now - seconds staleAfterSeconds) ↔
    (now - seconds staleAfterSeconds).representable = true := by
  rw [Time.add, ← Int.sub_eq_add_neg]
  split
  · rename_i hrepresentable
    exact iff_of_true rfl hrepresentable
  · rename_i hoverflow
    exact iff_of_false (fun h => by cases h) hoverflow

/-- A run that returns is within the calendar. -/
theorem runReconciliation_representable (hsound : Sound settings db) {result : ReconciliationReport × ReconciliationRun}
    (hrun : runReconciliation settings times now staleAfterSeconds snapshots providers db = .ok (result, db')) :
    (now - seconds staleAfterSeconds).representable = true := by
  obtain ⟨⟨⟨outbox, intents, houtbox, -⟩, -, -⟩, -, -⟩ := (runReconciliation_ok hsound).mp hrun
  rw [outboxHealth, Except.bind_ok] at houtbox
  obtain ⟨cutoff, hcutoff, -⟩ := houtbox
  by_contra hoverflow
  rw [Time.add, ← Int.sub_eq_add_neg, if_neg hoverflow] at hcutoff
  cases hcutoff

/-- On sound records a run is clean exactly when it is within the calendar, nothing has waited for too long and the
exports agree. -/
theorem runReconciliation_clean_iff (hsound : Sound settings db) :
    (∃ result, runReconciliation settings times now staleAfterSeconds snapshots providers db = .ok (result, db) ∧
        result.1.clean = true) ↔
      (now - seconds staleAfterSeconds).representable = true ∧ ¬Backlogged times (now - seconds staleAfterSeconds) db ∧
        ¬Stuck times (now - seconds staleAfterSeconds) db ∧ ∀ provider ∈ providers,
          Agrees (expectedSettlements db) (rowsOf ExternalSettlement.provider provider snapshots) := by
  constructor
  · intro h
    obtain ⟨result, hrun, hclean⟩ := h
    have hrepresentable := runReconciliation_representable hsound hrun
    exact ⟨hrepresentable, (runReconciliation_clean hsound (cutoff_ok.mpr hrepresentable)).mp ⟨result, hrun, hclean⟩⟩
  · intro h
    exact (runReconciliation_clean hsound (cutoff_ok.mpr h.1)).mpr h.2

/-- On sound records a run without exports returns exactly within the calendar. -/
theorem runReconciliation_returns_iff (hsound : Sound settings db) :
    (∃ result, runReconciliation settings times now staleAfterSeconds [] [] db = .ok (result, db)) ↔
      (now - seconds staleAfterSeconds).representable = true := by
  constructor
  · intro h
    obtain ⟨result, hrun⟩ := h
    exact runReconciliation_representable hsound hrun
  · intro hrepresentable
    have hadd := cutoff_ok.mpr hrepresentable
    obtain ⟨outbox, houtbox, -⟩ := @outboxHealth_ok times now _ staleAfterSeconds db hadd
    obtain ⟨intents, hintents, -⟩ := @tigerbeetleIntentHealth_ok times now _ staleAfterSeconds db hadd
    have hfits : reconciliationRunSchema.fits
        ((⟨[outbox, intents].reduceOption ++ [], 9⟩ : ReconciliationReport).row now) = true := by
      apply fits_of_storable
      intro finding hfinding
      rw [List.append_nil, List.reduceOption_mem_iff, List.mem_cons, List.mem_singleton] at hfinding
      obtain rfl | rfl := hfinding
      · exact outboxHealth_storable houtbox
      · exact tigerbeetleIntentHealth_storable hintents
    exact ⟨_, (runReconciliation_ok hsound).mpr ⟨⟨⟨outbox, intents, houtbox, hintents, rfl⟩, rfl, hfits⟩, rfl, rfl⟩⟩

end Runs

/-- The records are sound after every run of the services and the verifications. -/
theorem Sound.register (settings : Settings) (companies : Table companySchema) (tariffs : Table tariffSchema)
    (events : List RegisterEvent) :
    Sound settings (Lib.run (registerStep settings) (.initial companies tariffs) events).platform.db := by
  obtain ⟨events', hplatform⟩ := register_platform settings companies tariffs events
  rw [hplatform]
  exact .run settings companies tariffs events'

/-- A reconciliation reports what is outside the services' control and nothing else. After every run of the services
and the verifications, a reconciliation at any time returns exactly what its checks of the outbox and of the ledger
intents find by age and state, and what the exports disagree about. It is clean exactly when no message is dead or
has been waiting for longer than allowed, no ledger intent is quarantined or has been worked on for longer than
allowed, and the rows of every listed provider are the settled payments, each of them once. Without exports it fails
only outside the calendar. -/
theorem reconciliation_reports (settings : Settings) (companies : Table companySchema) (tariffs : Table tariffSchema)
    (events : List RegisterEvent) (times : CreationTimes) (now : Time) (staleAfterSeconds : ℤ)
    (snapshots : List ExternalSettlement) (providers : List SettlementProvider) :
    let db := (run (registerStep settings) (.initial companies tariffs) events).platform.db
    let cutoff := now - seconds staleAfterSeconds
    let reconcile := runReconciliation settings times now staleAfterSeconds
    (∀ report row db', reconcile snapshots providers db = .ok ((report, row), db') ↔
        Reported times now staleAfterSeconds snapshots providers db report ∧ row = report.row now ∧ db' = db) ∧
      ((∃ result, reconcile snapshots providers db = .ok (result, db) ∧ result.1.clean = true) ↔
        cutoff.representable = true ∧ ¬Backlogged times cutoff db ∧ ¬Stuck times cutoff db ∧
          ∀ provider ∈ providers,
            Agrees (expectedSettlements db) (rowsOf ExternalSettlement.provider provider snapshots)) ∧
      ((∃ result, reconcile [] [] db = .ok (result, db)) ↔ cutoff.representable = true) := by
  intro db cutoff reconcile
  have hsound : Sound settings db := .register settings companies tariffs events
  exact ⟨fun report row db' => runReconciliation_ok hsound, runReconciliation_clean_iff hsound,
    runReconciliation_returns_iff hsound⟩

end TaxStamp
