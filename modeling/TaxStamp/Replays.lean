import TaxStamp.Webhook

/-!
# Replayed remittances

The first ingestion of an external reference has three outcomes, each with its own answer.
A replay does not compute that answer again: it reads it off the receipt, and the order
off the intent of the receipt. The receipts are never changed and the intents keep their
order, so whatever has happened since, the answer is the first one.
-/

namespace TaxStamp

open Lib

/-- The database remembers the answer that was given to an external reference. -/
structure Remembers (db : Db) (externalReference : String) (answer : IngestResult) : Prop where
  receipt : ∃ r ∈ db.paymentReceipts.rows, r.externalReference = externalReference ∧ r.id = answer.receiptId ∧
    r.status = answer.status ∧
    ((r.paymentIntentId = none ∧ answer.orderId = none) ∨
      ∃ i ∈ db.paymentIntents.rows, r.paymentIntentId = some i.id ∧ answer.orderId = some i.orderId)

/-- The rows that a replay reads are kept: receipts as they are, intents with their order. -/
structure KeepsPayments (db db' : Db) : Prop where
  receipts : ∀ r ∈ db.paymentReceipts.rows, r ∈ db'.paymentReceipts.rows
  intents : ∀ i ∈ db.paymentIntents.rows, ∃ i' ∈ db'.paymentIntents.rows, i'.id = i.id ∧ i'.orderId = i.orderId

/-- Nothing is lost where the payment tables are the same. -/
theorem KeepsPayments.of_eq {db db' : Db} (hreceipts : db'.paymentReceipts = db.paymentReceipts)
    (hintents : db'.paymentIntents = db.paymentIntents) : KeepsPayments db db' where
  receipts _ hr := hreceipts ▸ hr
  intents i hi := ⟨i, hintents ▸ hi, rfl, rfl⟩

/-- Tables that only grow lose nothing. -/
theorem KeepsPayments.of_append {db db' : Db} {R : List PaymentReceipt} {I : List PaymentIntent}
    (hreceipts : db'.paymentReceipts.rows = db.paymentReceipts.rows ++ R)
    (hintents : db'.paymentIntents.rows = db.paymentIntents.rows ++ I) : KeepsPayments db db' where
  receipts _ hr := hreceipts ▸ List.mem_append_left R hr
  intents i hi := ⟨i, hintents ▸ List.mem_append_left I hi, rfl, rfl⟩

/-- An ingestion adds its receipt and changes of the intents at most a status. -/
theorem IngestEffect.keepsPayments {settings : Settings} {draws : Draws} {advice : RemittanceAdvice} {now : Time}
    {db db' : Db} (h : IngestEffect settings draws advice now db db') : KeepsPayments db db' := by
  cases h with
  | replayed receipt hmem hreference => exact .of_eq rfl rfl
  | unknown payloadHash R A hR hA => exact .of_append hR (List.append_nil _).symm
  | mismatched intent payloadHash R J E M A hintent hstatus hR hJ hE hsupported hM hannounced hA =>
    exact .of_append hR (List.append_nil _).symm
  | settled intent order payloadHash R O T I J E M A hintent hstatus horder hid hawaiting hR hO hT hI hJ hE
      hsupported hM hannounced hA =>
    refine ⟨fun r hr => ?_, fun i hi => ?_⟩
    · change r ∈ R.rows
      rw [hR]
      exact List.mem_append_left _ hr
    · refine ⟨if i.id = intent.id then i.settle now else i, ?_, ?_⟩
      · change _ ∈ I.rows
        rw [hI]
        exact List.mem_map_of_mem hi
      · split <;> exact ⟨rfl, rfl⟩

/-- No transaction loses what a replay reads. -/
theorem Change.keepsPayments {settings : Settings} {s : Platform} {e : Event} {db' : Db}
    (h : Change settings s e db') : KeepsPayments s.db db' := by
  cases h with
  | sameCore e db' hsame => exact .of_eq hsame.paymentReceipts hsame.paymentIntents
  | submitted compliance draws actor command now key draft compliant O T A hdraft hfresh hO hT hA =>
    exact .of_eq rfl rfl
  | decided draws actor command now key order P db₁ A horder hid hstatus hrole hsubmitter hfirst hP heffect hA =>
    cases heffect with
    | rejected O T hdecision hO hT => exact .of_eq rfl rfl
    | recorded hdecision hopen => exact .of_eq rfl rfl
    | opened O T I M hdecision hfull hO hT hI hM hannounced => exact .of_append (List.append_nil _).symm hI
  | cancelled draws actor orderId reason now order O T A horder hid hmay hlegal hO hT hA => exact .of_eq rfl rfl
  | ingested draws advice now db' heffect => exact heffect.keepsPayments
  | issued draws orderId chunkSize now db' heffect =>
    cases heffect
    exact .of_eq rfl rfl
  | inspected draws actor command now db' heffect =>
    cases heffect
    exact .of_eq rfl rfl
  | activated index draws actor now key a db' ha heffect =>
    cases heffect
    exact .of_eq rfl rfl
  | retired e db' heffect =>
    cases heffect
    exact .of_eq rfl rfl

section Remembers

variable {db db' : Db} {externalReference : String} {answer : IngestResult}

/-- What is remembered stays so while nothing is lost. -/
theorem Remembers.keep (h : Remembers db externalReference answer) (hkeep : KeepsPayments db db') :
    Remembers db' externalReference answer := by
  obtain ⟨r, hr, hreference, hid, hstatus, horder⟩ := h.receipt
  refine ⟨r, hkeep.receipts r hr, hreference, hid, hstatus, ?_⟩
  rcases horder with hnone | ⟨i, hi, hintent, horder⟩
  · exact .inl hnone
  · obtain ⟨i', hi', hid', horder'⟩ := hkeep.intents i hi
    exact .inr ⟨i', hi', by rw [hintent, hid'], by rw [horder, horder']⟩

/-- What is remembered is answered, and nothing changes. -/
theorem Remembers.replay (h : Remembers db externalReference answer) (settings : Settings) (draws : Draws)
    {advice : RemittanceAdvice} (hadvice : advice.externalReference = externalReference) (now : Time) :
    ingestRemittance settings draws advice now db = .ok ({ answer with duplicate := true }, db) := by
  obtain ⟨r, hr, hreference, hid, hstatus, horder⟩ := h.receipt
  have hfound : db.paymentReceipts.rows.filter (fun r => r.externalReference = advice.externalReference) = [r] := by
    refine db.paymentReceipts.filter_eq_singleton hr (by simp [hreference, hadvice]) fun r' _ hsame => ?_
    simp only [decide_eq_true_eq] at hsame
    simp [paymentReceiptSchema, hsame, hadvice, hreference]
  rw [ingestRemittance, Tx.bind_ok]
  refine ⟨some r, db, selectOne_some.mpr ⟨hfound, rfl⟩, ?_⟩
  change replayIngest r db = _
  rw [replayIngest]
  rcases horder with ⟨hintent, horder⟩ | ⟨i, hi, hintent, horder⟩
  · rw [hintent]
    exact Tx.pure_ok.mpr ⟨by rw [hid, hstatus, horder], rfl⟩
  · have hfetched : db.paymentIntents.rows.filter (fun i' => i'.id = i.id) = [i] := by
      refine db.paymentIntents.filter_eq_singleton hi (by simp) fun i' _ hsame => ?_
      simp only [decide_eq_true_eq] at hsame
      simp [paymentIntentSchema, hsame]
    simp only [hintent, Tx.bind_ok, fetch_ok, Tx.pure_ok]
    exact ⟨i, db, ⟨hfetched, rfl⟩, by rw [hid, hstatus, horder], rfl⟩

/-- A first ingestion is remembered, whatever its outcome. -/
theorem ingestNew_remembers {settings : Settings} {draws : Draws} {advice : RemittanceAdvice} {now : Time}
    (h : ingestNew settings draws advice now db = .ok (answer, db')) :
    Remembers db' advice.externalReference answer ∧ answer.duplicate = false := by
  have hkeep := (ingestNew_ok h).keepsPayments
  simp only [ingestNew, Tx.bind_ok, Tx.lift_ok, insertRow_ok, Tx.pure_ok, ensureUtc_ok] at h
  obtain ⟨found, db₁, hfound, payloadHash, db₂, ⟨-, rfl⟩, valueDate, db₃, ⟨⟨-, rfl⟩, rfl⟩, -, db₄, ⟨R, hR, rfl⟩,
    orderId, db₅, happly, event, db₆, haudit, rfl, rfl⟩ := h
  obtain ⟨A, -, rfl⟩ := recordAuditEvent_ok haudit
  have hnew : newReceipt (draws.uuid 0) found advice payloadHash now ∈ R.rows := by
    rw [hR]
    exact List.mem_append_right _ (List.mem_singleton.mpr rfl)
  refine ⟨⟨newReceipt (draws.uuid 0) found advice payloadHash now, ?_⟩, rfl⟩
  cases found with
  | none =>
    obtain ⟨-, rfl⟩ := selectOne_none.mp hfound
    obtain ⟨rfl, rfl⟩ := Tx.pure_ok.mp happly
    exact ⟨hnew, rfl, rfl, rfl, .inl ⟨rfl, rfl⟩⟩
  | some intent =>
    obtain ⟨hfilter, rfl⟩ := selectOne_some.mp hfound
    obtain ⟨i, hi, hid, horder⟩ := hkeep.intents intent (mem_of_filter_eq_singleton hfilter).1
    have hclass : (newReceipt (draws.uuid 0) (some intent) advice payloadHash now).status =
      classify (some intent) advice := rfl
    rcases classify_some intent advice with hstatus | hstatus
    · rw [hstatus] at hclass
      simp only [applyReceipt, hclass, Tx.bind_ok, Tx.pure_ok] at happly
      obtain ⟨u, db₇, hquarantine, rfl, rfl⟩ := happly
      obtain ⟨J, E, M, -, -, -, -, rfl⟩ := quarantineFunds_ok hquarantine
      exact ⟨hnew, rfl, rfl, rfl, .inr ⟨i, hi, congrArg some hid.symm, congrArg some horder.symm⟩⟩
    · rw [hstatus] at hclass
      simp only [applyReceipt, hclass, Tx.bind_ok, Tx.pure_ok] at happly
      obtain ⟨paid, db₇, hsettle, rfl, rfl⟩ := happly
      obtain ⟨order, O, T, I, J, E, M, -, hordered, -, -, -, -, -, -, hpaid, -, -, rfl⟩ := settleIntent_ok hsettle
      exact ⟨hnew, rfl, rfl, rfl,
        .inr ⟨i, hi, congrArg some hid.symm, congrArg some (hpaid.trans (hordered.trans horder.symm))⟩⟩

end Remembers

/-- An event that ingests is an ingestion. -/
theorem exists_of_ingests {e : Event} (h : e.ingests = true) :
    ∃ draws advice now, e = .ingestRemittance draws advice now := by
  cases e <;> first
    | exact ⟨_, _, _, rfl⟩
    | cases h

/-- An ingestion of a reference that is not recorded is a first one. -/
theorem ingestRemittance_first {settings : Settings} {draws : Draws} {advice : RemittanceAdvice} {now : Time}
    {db db' : Db} {answer : IngestResult} (h : ingestRemittance settings draws advice now db = .ok (answer, db'))
    (hnew : ∀ r ∈ db.paymentReceipts.rows, r.externalReference ≠ advice.externalReference) :
    Remembers db' advice.externalReference answer ∧ answer.duplicate = false := by
  simp only [ingestRemittance, Tx.bind_ok] at h
  obtain ⟨existing, db₁, hselect, hrest⟩ := h
  cases existing with
  | none =>
    obtain ⟨-, rfl⟩ := selectOne_none.mp hselect
    exact ingestNew_remembers hrest
  | some receipt =>
    obtain ⟨hfilter, rfl⟩ := selectOne_some.mp hselect
    obtain ⟨hmem, hreference⟩ := mem_of_filter_eq_singleton hfilter
    exact absurd (by simpa using hreference) (hnew receipt hmem)

/-- The first ingestion of an external reference in a run, with its answer. -/
structure FirstIngestion (settings : Settings) (start : Platform) (events : List Event) (externalReference : String)
    (answer : IngestResult) : Prop where
  found : ∃ before draws advice now after,
    events = before ++ .ingestRemittance draws advice now :: after ∧ advice.externalReference = externalReference ∧
    (∀ r ∈ (run (step settings) start before).db.paymentReceipts.rows, r.externalReference ≠ externalReference) ∧
    ingestRemittance settings draws advice now (run (step settings) start before).db =
      .ok (answer, (run (step settings) start (before ++ [.ingestRemittance draws advice now])).db)

/-- A first ingestion stays the first one in a longer run. -/
theorem FirstIngestion.append {settings : Settings} {start : Platform} {events : List Event}
    {externalReference : String} {answer : IngestResult}
    (h : FirstIngestion settings start events externalReference answer) (more : List Event) :
    FirstIngestion settings start (events ++ more) externalReference answer := by
  obtain ⟨before, draws, advice, now, after, rfl, hrest⟩ := h.found
  exact ⟨before, draws, advice, now, after ++ more, by rw [List.append_assoc, List.cons_append], hrest⟩

/-- Every receipt was written by a first ingestion, whose answer the database remembers. -/
theorem firstIngestion_of_receipt (settings : Settings) (companies : Table companySchema)
    (tariffs : Table tariffSchema) (events : List Event) :
    ∀ r ∈ (run (step settings) (.initial companies tariffs) events).db.paymentReceipts.rows,
      ∃ answer, FirstIngestion settings (.initial companies tariffs) events r.externalReference answer ∧
        answer.duplicate = false ∧
        Remembers (run (step settings) (.initial companies tariffs) events).db r.externalReference answer := by
  refine run_history (fun past (s : Platform) => ∀ r ∈ s.db.paymentReceipts.rows,
    ∃ answer, FirstIngestion settings (.initial companies tariffs) past r.externalReference answer ∧
      answer.duplicate = false ∧ Remembers s.db r.externalReference answer) _ ?_ ?_ events
  · intro r hr
    cases hr
  · intro past e h r hr
    set s := run (step settings) (.initial companies tariffs) past with hs
    have hkeep := (step_change settings s e).keepsPayments
    by_cases hold : ∃ r' ∈ s.db.paymentReceipts.rows, r'.externalReference = r.externalReference
    · obtain ⟨r', hr', hreference⟩ := hold
      obtain ⟨answer, hfirst, hduplicate, hremembers⟩ := h r' hr'
      rw [hreference] at hfirst hremembers
      exact ⟨answer, hfirst.append [e], hduplicate, hremembers.keep hkeep⟩
    · -- The receipt is new, so the event is the ingestion that wrote it.
      push Not at hold
      cases hingests : e.ingests with
      | false =>
        rw [paymentReceipts_step settings s e hingests] at hr
        exact absurd rfl (hold r hr)
      | true =>
        obtain ⟨draws, advice, now, rfl⟩ := exists_of_ingests hingests
        cases hingest : ingestRemittance settings draws advice now s.db with
        | error fault =>
          simp only [step, Tx.commit, hingest] at hr
          exact absurd rfl (hold r hr)
        | ok result =>
          obtain ⟨answer, db'⟩ := result
          have hstep : (step settings s (.ingestRemittance draws advice now)).db = db' := by
            simp only [step, Tx.commit, hingest]
          rw [hstep] at hr ⊢
          have hadvice : advice.externalReference = r.externalReference := by
            rcases ((ingestRemittance_ok hingest).recorded r.externalReference).mp ⟨r, hr, rfl⟩ with hrecorded | hadvice
            · obtain ⟨r', hr', hreference⟩ := hrecorded
              exact absurd hreference (hold r' hr')
            · exact hadvice
          obtain ⟨hremembers, hduplicate⟩ := ingestRemittance_first hingest (hadvice ▸ hold)
          rw [hadvice] at hremembers
          refine ⟨answer, ⟨past, draws, advice, now, [], rfl, hadvice, hold, ?_⟩, hduplicate, hremembers⟩
          rw [run_concat, ← hs, hstep]
          exact hingest

/-- Replaying a remittance is answered as the first time and changes nothing: for every receipt of a reachable
state there is a first ingestion of its external reference, and after any further events an advice with that
reference, whatever else it says, is answered with the answer of the first one. -/
theorem replay_answers_first (settings : Settings) (companies : Table companySchema) (tariffs : Table tariffSchema)
    (events : List Event) (r : PaymentReceipt)
    (hr : r ∈ (run (step settings) (.initial companies tariffs) events).db.paymentReceipts.rows) :
    ∃ answer, FirstIngestion settings (.initial companies tariffs) events r.externalReference answer ∧
      answer.duplicate = false ∧
      ∀ more draws advice now, advice.externalReference = r.externalReference →
        let db := (run (step settings) (.initial companies tariffs) (events ++ more)).db
        ingestRemittance settings draws advice now db = .ok ({ answer with duplicate := true }, db) := by
  obtain ⟨answer, hfirst, hduplicate, hremembers⟩ := firstIngestion_of_receipt settings companies tariffs events r hr
  refine ⟨answer, hfirst, hduplicate, fun more draws advice now hadvice => ?_⟩
  have hlater := run_invariant (fun s : Platform => Remembers s.db r.externalReference answer)
    (fun s e h => h.keep (step_change settings s e).keepsPayments) _ hremembers more
  rw [← run_append] at hlater
  exact hlater.replay settings draws hadvice now

/-- A paid order's remittance is answered again with another amount and another reference after a chunk of its
stamps has been printed. -/
theorem replay_answers_first_sample :
    ∃ answer, FirstIngestion sampleSettings (.initial sampleCompanies sampleTariffs) sampleIssued "BANK-1" answer ∧
      answer.duplicate = false ∧
      let db := (run (step sampleSettings) (.initial sampleCompanies sampleTariffs)
        (sampleIssued ++ [sampleRemittance 5 "BANK-2" 7])).db
      ingestRemittance sampleSettings (sampleDraws 6) ⟨"BANK-1", "PAY-OTHER", 5, "USD", 0, []⟩ sampleNow db =
        .ok ({ answer with duplicate := true }, db) := by
  have hreceipt : ∃ r ∈ (run (step sampleSettings) (.initial sampleCompanies sampleTariffs)
      sampleIssued).db.paymentReceipts.rows, r.externalReference = "BANK-1" := by
    decide +kernel
  obtain ⟨r, hr, hreference⟩ := hreceipt
  obtain ⟨answer, hfirst, hduplicate, hreplay⟩ :=
    replay_answers_first sampleSettings sampleCompanies sampleTariffs sampleIssued r hr
  rw [hreference] at hfirst
  have hagain := hreplay [sampleRemittance 5 "BANK-2" 7] (sampleDraws 6) ⟨"BANK-1", "PAY-OTHER", 5, "USD", 0, []⟩
    sampleNow hreference.symm
  exact ⟨answer, hfirst, hduplicate, hagain⟩

end TaxStamp
