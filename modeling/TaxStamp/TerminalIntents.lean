import TaxStamp.AuditActions
import TaxStamp.TigerBeetleWorkers

/-!
# Finished ledger intents

A posted, rejected or quarantined intent is finished, and the transitions leave no way out
of these states. Of a worker's transactions only the first tests for them; the others rest
on the transitions, and the confirmation of a matching transfer takes none. Between the
lookup of one worker and its confirmation another worker may have finished the intent.
-/

namespace TaxStamp

open Lib

/-- The audit events about a ledger intent. -/
def intentEvents (intentId : Uuid) (db : Db) : List AuditEvent :=
  db.auditEvents.rows.filter fun a => "tigerbeetle.intent.".toList.isPrefixOf a.action.toList && a.targetId = intentId.str

/-- No worker confirms a finished intent by a transfer that equals it. -/
def confirmsUnfinished (s : Subledger) : SubledgerEvent → Prop
  | .worker index (.confirm _ _) =>
    match s.workers[index]? with
    | some ⟨intentId, .observed transfer⟩ =>
      ∀ i ∈ s.intents, i.id = intentId → i.state.finished → transferMatches i transfer = false
    | _ => True
  | _ => True

/-- A record that others leave behind is not one about a ledger intent. -/
def recordsElsewhere : SubledgerEvent → Prop
  | .service (.recordAudit _ _ _ record _) => "tigerbeetle.intent.".toList.isPrefixOf record.action.toList = false
  | _ => True

/-- A finished intent and the events about it are as they were. -/
structure Frozen (i : TigerBeetleLedgerIntent) (db db' : Db) : Prop where
  row : i ∈ db'.tigerbeetleLedgerIntents.rows
  events : intentEvents i.id db' = intentEvents i.id db

variable {settings : Settings} {db db' : Db} {i : TigerBeetleLedgerIntent}

/-- No transition leads out of a finished state. -/
theorem transitions_of_finished {state target : TigerBeetleLedgerIntentState} (h : state.finished) :
    target ∉ tigerbeetleLedgerIntentTransitions state := by
  rcases h with rfl | rfl | rfl <;> cases target <;> decide

/-- Events about something else do not count. -/
theorem TrailGrows.intentEvents_eq {P : AuditRecord → Prop} (h : TrailGrows P db db')
    (hP : ∀ record, P record → "tigerbeetle.intent.".toList.isPrefixOf record.action.toList = true →
      record.targetId ≠ i.id.str) :
    intentEvents i.id db' = intentEvents i.id db := by
  obtain ⟨new, hnew, hall⟩ := h
  have hnone : new.filter (fun a => "tigerbeetle.intent.".toList.isPrefixOf a.action.toList && a.targetId = i.id.str) = [] := by
    refine List.filter_eq_nil_iff.mpr fun a ha hcounts => ?_
    simp only [Bool.and_eq_true, decide_eq_true_eq] at hcounts
    exact hP a.record (hall a ha) hcounts.1 hcounts.2
  rw [intentEvents, hnew, List.filter_append, hnone, List.append_nil, intentEvents]

/-- A worker's transaction on a finished intent changes nothing, unless it confirms a transfer that equals it. -/
theorem LedgerWork.commit_of_finished (work : LedgerWork) (hmem : i ∈ db.tigerbeetleLedgerIntents.rows)
    (hid : i.id = work.intentId) (hfinished : i.state.finished)
    (hevidence : ∀ t ∈ work.evidence, transferMatches i t = false) : work.commit settings db = db := by
  have hlock : ∀ {intent : TigerBeetleLedgerIntent} {db₁ : Db}, lockLedgerIntent work.intentId db = .ok (intent, db₁) →
      intent = i ∧ db₁ = db := by
    intro intent db₁ h
    obtain ⟨hintent, hid', rfl⟩ := lockLedgerIntent_ok h
    exact ⟨ledgerIntent_eq_of_id db hintent hmem (hid'.trans hid.symm), rfl⟩
  have hillegal : ∀ {target : TigerBeetleLedgerIntentState} {u : Unit} {db₁ db₂ : Db},
      assertLedgerTransition i.state target db₁ ≠ .ok (u, db₂) := by
    intro target u db₁ db₂ h
    exact transitions_of_finished hfinished (Tx.require_ok.mp h).1
  cases work with
  | mark intentId clock =>
    refine Tx.commit_induction (· = db) rfl fun result db' h => ?_
    simp only [markSubmissionUncertain, Tx.bind_ok] at h
    obtain ⟨intent, db₁, hlocked, hrest⟩ := h
    obtain ⟨rfl, rfl⟩ := hlock hlocked
    rw [if_pos hfinished] at hrest
    exact (Tx.pure_ok.mp hrest).2.symm
  | confirm draws intentId transfer clock =>
    refine Tx.commit_induction (· = db) rfl fun result db' h => ?_
    simp only [confirmOrQuarantine, Tx.bind_ok] at h
    obtain ⟨intent, db₁, hlocked, hrest⟩ := h
    obtain ⟨rfl, rfl⟩ := hlock hlocked
    rw [if_neg (by rw [hevidence transfer rfl]; decide)] at hrest
    simp only [Tx.bind_ok] at hrest
    obtain ⟨u, db₂, hassert, -⟩ := hrest
    exact absurd hassert hillegal
  | finalise draws intentId clock =>
    refine Tx.commit_induction (· = db) rfl fun result db' h => ?_
    simp only [finalisePosted, Tx.bind_ok] at h
    obtain ⟨intent, db₁, hlocked, hrest⟩ := h
    obtain ⟨rfl, rfl⟩ := hlock hlocked
    split at hrest
    · exact (Tx.pure_ok.mp hrest).2.symm
    · simp only [Tx.bind_ok] at hrest
      obtain ⟨u, db₂, hassert, -⟩ := hrest
      exact absurd hassert hillegal
  | reject draws intentId reason clock =>
    refine Tx.commit_induction (· = db) rfl fun result db' h => ?_
    simp only [rejectLedgerIntent, Tx.bind_ok] at h
    obtain ⟨intent, db₁, hlocked, u, db₂, hassert, -⟩ := h
    obtain ⟨rfl, rfl⟩ := hlock hlocked
    exact absurd hassert hillegal

/-- Nothing has happened. -/
theorem Frozen.refl (hmem : i ∈ db.tigerbeetleLedgerIntents.rows) : Frozen i db db := ⟨hmem, rfl⟩

/-- A worker's transaction keeps the rows of other intents. -/
theorem WorkOutcome.keeps {work : LedgerWork} (h : WorkOutcome settings work db db')
    (hmem : i ∈ db.tigerbeetleLedgerIntents.rows) (hid : i.id ≠ work.intentId) :
    i ∈ db'.tigerbeetleLedgerIntents.rows := by
  rcases h with rfl | ⟨intent, f, heffect, -⟩
  · exact hmem
  · cases heffect with
    | rewritten f L A hintent hid' hL =>
      change i ∈ L.rows
      rw [hL]
      exact List.mem_map.mpr ⟨i, hmem, if_neg hid⟩

/-- A request keeps the rows of all intents. -/
theorem RequestsOnly.keeps (h : RequestsOnly settings db db') (hmem : i ∈ db.tigerbeetleLedgerIntents.rows) :
    i ∈ db'.tigerbeetleLedgerIntents.rows := by
  rcases h with hsame | ⟨draws, hcreate⟩
  · rw [hsame]
    exact hmem
  · cases hcreate with
    | reused => exact hmem
    | created intent payment L M A hpayment hid hsettled hamount hcurrency hready hL =>
      change i ∈ L.rows
      rw [hL]
      exact List.mem_append_left _ hmem

/-- A worker's transaction leaves a finished intent alone, unless it confirms a transfer that equals it. -/
theorem LedgerWork.frozen (settings : Settings) (work : LedgerWork) (hmem : i ∈ db.tigerbeetleLedgerIntents.rows)
    (hfinished : i.state.finished)
    (hevidence : i.id = work.intentId → ∀ t ∈ work.evidence, transferMatches i t = false) :
    Frozen i db (work.commit settings db) := by
  by_cases hid : i.id = work.intentId
  · rw [work.commit_of_finished hmem hid hfinished (hevidence hid)]
    exact .refl hmem
  · constructor
    · exact (work.commit_outcome settings db).keeps hmem hid
    · refine (work.records fun _ h => h).intentEvents_eq fun record htarget _ heq => hid ?_
      exact Uuid.str_injective (heq.symm.trans htarget.2)

/-- The other services leave every ledger intent alone. -/
theorem frozen_service (settings : Settings) (s : Platform) (e : Event) (hmem : i ∈ s.db.tigerbeetleLedgerIntents.rows)
    (hother : ∀ work, e ≠ .ledgerWork work) (helsewhere : recordsElsewhere (.service e)) :
    Frozen i s.db (step settings s e).db := by
  constructor
  · exact (step_requestsOnly settings s e hother).keeps hmem
  · refine (step_records settings s e).intentEvents_eq fun record hmay hprefix => ?_
    cases e with
    | createLedgerIntent => exact hmay.2 i hmem
    | ledgerWork work => exact absurd rfl (hother work)
    | recordAudit draws eventId actor allowed now =>
      obtain rfl : record = allowed := hmay
      rw [show _ = false from helsewhere] at hprefix
      cases hprefix
    | readStatuses => cases hmay
    | claimBatch => cases hmay
    | markProcessed => cases hmay
    | markFailed => cases hmay
    | decideApproval draws actor command now key =>
      rw [show record.action = _ from hmay] at hprefix
      generalize command.decision = decision at hprefix
      cases decision <;> exact absurd hprefix (by decide)
    | _ =>
      rw [show record.action = _ from hmay] at hprefix
      exact absurd hprefix (by decide)

/-- A worker's step takes a transaction of its own intent or none; a confirmation rests on what it has observed. -/
theorem submit_platform (settings : Settings) (s : Subledger) (w : LedgerWorker) (e : WorkerEvent) :
    (submitIntentLookupBeforeRetry settings s w e).1.platform = s.platform ∨
      ∃ work, (submitIntentLookupBeforeRetry settings s w e).1.platform = step settings s.platform (.ledgerWork work) ∧
        work.intentId = w.intentId ∧
        ∀ t ∈ work.evidence, w.submission = .observed t ∧ ∃ draws clock, e = .confirm draws clock := by
  unfold submitIntentLookupBeforeRetry
  split
  case h_1 clock hstarting => exact .inr ⟨.mark w.intentId clock, rfl, rfl, fun t ht => absurd ht (Option.not_mem_none t)⟩
  case h_3 stores timestamp answer habsent =>
    left
    dsimp only
    split
    · unfold Subledger.store
      split <;> rfl
    · rfl
  case h_4 draws clock hrefused =>
    exact .inr ⟨.reject draws w.intentId _ clock, rfl, rfl, fun t ht => absurd ht (Option.not_mem_none t)⟩
  case h_6 transfer draws clock hobserved =>
    refine .inr ⟨.confirm draws w.intentId transfer clock, rfl, rfl, ?_⟩
    rintro t ⟨⟩
    exact ⟨hobserved, draws, clock, rfl⟩
  case h_7 draws clock hconfirmed =>
    exact .inr ⟨.finalise draws w.intentId clock, rfl, rfl, fun t ht => absurd ht (Option.not_mem_none t)⟩
  all_goals exact .inl rfl

/-- A finished intent stays as it is over a step that meets the condition. -/
theorem frozen_step (settings : Settings) (s : Subledger) (e : SubledgerEvent) (hmem : i ∈ s.intents)
    (hfinished : i.state.finished) (hconfirms : confirmsUnfinished s e) (helsewhere : recordsElsewhere e) :
    Frozen i s.platform.db (subledgerStep settings s e).platform.db := by
  unfold subledgerStep
  split
  · exact .refl hmem
  · rename_i e hother
    exact frozen_service settings s.platform e hmem (fun work hwork => hother work (by rw [hwork])) helsewhere
  · exact .refl hmem
  · exact .refl hmem
  · rename_i index e
    split
    · exact .refl hmem
    · rename_i w hw
      dsimp only
      rcases submit_platform settings s w e with hsame | ⟨work, hwork, hid, hevidence⟩
      · rw [hsame]
        exact .refl hmem
      · rw [hwork]
        refine work.frozen settings hmem hfinished fun hi t ht => ?_
        obtain ⟨hobserved, draws, clock, rfl⟩ := hevidence t ht
        simp only [confirmsUnfinished, hw] at hconfirms
        obtain ⟨intentId, submission⟩ := w
        obtain rfl : submission = .observed t := hobserved
        exact hconfirms i hmem (hi.trans hid) hfinished

/-- Finished ledger intents are frozen over every interleaving in which no worker confirms a finished intent by a
transfer that equals it: once an intent is posted, rejected or quarantined, its row stays as it is in every column and
no further event about it is written. -/
theorem finished_intents_frozen (settings : Settings) (companies : Table companySchema) (tariffs : Table tariffSchema)
    (before after : List SubledgerEvent) (helsewhere : ∀ e ∈ after, recordsElsewhere e)
    (hconfirms : Along (subledgerStep settings) confirmsUnfinished
      (run (subledgerStep settings) (.initial companies tariffs) before) after) :
    ∀ i ∈ (run (subledgerStep settings) (.initial companies tariffs) before).intents, i.state.finished →
      i ∈ (run (subledgerStep settings) (.initial companies tariffs) (before ++ after)).intents ∧
      intentEvents i.id (run (subledgerStep settings) (.initial companies tariffs) (before ++ after)).platform.db =
        intentEvents i.id (run (subledgerStep settings) (.initial companies tariffs) before).platform.db := by
  intro i hmem hfinished
  rw [run_append]
  generalize run (subledgerStep settings) (.initial companies tariffs) before = s at hmem hconfirms ⊢
  suffices hfrozen : Frozen i s.platform.db (run (subledgerStep settings) s after).platform.db from
    ⟨hfrozen.row, hfrozen.events⟩
  induction after generalizing s with
  | nil => exact .refl hmem
  | cons e rest ih =>
    have hstep := frozen_step settings s e hmem hfinished hconfirms.1 (helsewhere e (List.mem_cons_self ..))
    have hrest := ih (fun e he => helsewhere e (List.mem_cons_of_mem _ he)) _ hstep.row hconfirms.2
    exact ⟨hrest.row, hrest.events.trans hstep.events⟩

/-- Two workers look up the transfer that the first of them has created for the requested intent, and the second one
posts the intent. -/
def sampleOverlap : List SubledgerEvent :=
  sampleRequested.map .service ++
  [.submit ⟨400⟩, .submit ⟨400⟩, .worker 0 (.mark fun _ => sampleNow), .worker 0 (.lookup true),
    .worker 0 (.create true 123456 (some .created)), .worker 0 (.lookup true), .worker 1 (.mark fun _ => sampleNow),
    .worker 1 (.lookup true), .worker 1 (.confirm (sampleDraws 5) fun _ => sampleNow),
    .worker 1 (.finalise (sampleDraws 6) fun _ => sampleNow)]

/-- What the first worker does to the posted intent when it goes on a microsecond later. -/
theorem sampleOverlap_run :
    let s := run (subledgerStep sampleLedgerSettings) (.initial sampleCompanies sampleTariffs) sampleOverlap
    let s' := subledgerStep sampleLedgerSettings s (.worker 0 (.confirm (sampleDraws 7) fun _ => sampleNow + 1))
    ∃ i ∈ s.intents, i.state = .posted ∧ i ∉ s'.intents ∧ (intentEvents i.id s.platform.db).length = 3 ∧
      (intentEvents i.id s'.platform.db).length = 4 := by
  decide +kernel

/-- A retry of the posted sample intent leaves it as it is. -/
theorem finished_intents_frozen_sample :
    ∃ i ∈ (run (subledgerStep sampleLedgerSettings) (.initial sampleCompanies sampleTariffs) sampleOverlap).intents,
      i.state.finished ∧
      i ∈ (run (subledgerStep sampleLedgerSettings) (.initial sampleCompanies sampleTariffs)
        (sampleOverlap ++ [.submit ⟨400⟩, .worker 2 (.mark fun _ => sampleNow + 1)])).intents := by
  obtain ⟨i, hmem, hposted, -⟩ := sampleOverlap_run
  have hfrozen := finished_intents_frozen sampleLedgerSettings sampleCompanies sampleTariffs sampleOverlap
    [.submit ⟨400⟩, .worker 2 (.mark fun _ => sampleNow + 1)] (by simp [recordsElsewhere]) ⟨trivial, trivial, trivial⟩
  exact ⟨i, hmem, .inl hposted, (hfrozen i hmem (.inl hposted)).1⟩

/-- A worker that had looked up the transfer before rewrites the posted intent and records a further event about it. -/
theorem not_finished_intents_frozen :
    ∃ (before after : List SubledgerEvent),
      ∃ i ∈ (run (subledgerStep sampleLedgerSettings) (.initial sampleCompanies sampleTariffs) before).intents,
        i.state.finished ∧
        i ∉ (run (subledgerStep sampleLedgerSettings) (.initial sampleCompanies sampleTariffs) (before ++ after)).intents ∧
        intentEvents i.id (run (subledgerStep sampleLedgerSettings) (.initial sampleCompanies sampleTariffs)
            (before ++ after)).platform.db ≠
          intentEvents i.id (run (subledgerStep sampleLedgerSettings) (.initial sampleCompanies sampleTariffs)
            before).platform.db := by
  obtain ⟨i, hmem, hposted, hrow, hevents, hevents'⟩ := sampleOverlap_run
  refine ⟨sampleOverlap, [.worker 0 (.confirm (sampleDraws 7) fun _ => sampleNow + 1)], i, hmem, .inl hposted, ?_, ?_⟩
  · rw [run_concat]
    exact hrow
  · rw [run_concat]
    intro heq
    rw [heq, hevents] at hevents'
    cases hevents'

end TaxStamp
