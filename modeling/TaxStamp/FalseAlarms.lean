import TaxStamp.AuditChain
import TaxStamp.Reconciliation
import TaxStamp.Stocktake

/-!
# Reconciliation raises no false alarm

Every check of a reconciliation recomputes from rows what the services keep as an
invariant. The payment checks follow from the dossiers of the orders and the conservation
of funds. The batches count their stamps, because a chunk writes its stamps and the count
together. The audit events are linked in the order of their sequence numbers, because each
is built on the last one.
-/

namespace TaxStamp

open Lib

/-! ### Payments -/

variable {db db' : Db}

/-- Balanced journals are not reported. -/
theorem unbalancedJournalFinding_none (hreconciled : Reconciled db) (hconserved : db.accounts.Conserved) :
    unbalancedJournalFinding db = none := by
  refine Finding.ofRows_nil (List.filter_eq_nil_iff.mpr fun row hrow hdiffers => ?_)
  obtain ⟨journalId, hjournal, rfl⟩ := List.mem_map.mp hrow
  obtain ⟨entry, hentry, rfl⟩ := List.mem_map.mp (List.mem_dedup.mp hjournal)
  obtain ⟨journal, hmem, hid⟩ := List.mem_map.mp (hreconciled.closed.entries entry hentry)
  have hbalanced := (hconserved.balanced journal hmem).total
  rw [hid] at hbalanced
  exact of_decide_eq_true hdiffers hbalanced

/-- In supported currencies the collections are what is owed. -/
theorem conservationMismatches_nil (hconserved : db.accounts.Conserved) {currencies : List String}
    (hsupported : ∀ currency ∈ currencies, (currencyExponents.lookup currency).isSome = true) :
    conservationMismatches currencies db = .ok ([], db) := by
  induction currencies with
  | nil => rfl
  | cons currency rest ih =>
    have hcurrency := hsupported currency List.mem_cons_self
    have hrest := ih fun c hc => hsupported c (List.mem_cons_of_mem _ hc)
    obtain ⟨hbank, hduty, hunapplied⟩ := hconserved.conserves currency
    change netTotal db.ledgerEntries.rows _ _ = _ at hbank
    change -(netTotal db.ledgerEntries.rows _ _ + netTotal db.ledgerEntries.rows _ _) = _ at hduty
    change -netTotal db.ledgerEntries.rows _ _ = _ at hunapplied
    simp only [conservationMismatches, Tx.bind_ok]
    refine ⟨_, db, accountBalance_eq hcurrency, _, db, accountBalance_eq hcurrency, _, db, accountBalance_eq hcurrency,
      _, db, accountBalance_eq hcurrency, _, db, hrest, ?_⟩
    rw [if_neg]
    · rfl
    · dsimp only
      omega

/-- Every journal is in a supported currency. -/
def JournalsSupported (db : Db) : Prop :=
  ∀ j ∈ db.journals.rows, (currencyExponents.lookup j.currency).isSome = true

/-- Conserved funds are not reported. -/
theorem settlementConservation_none (hconserved : db.accounts.Conserved) (hsupported : JournalsSupported db) :
    settlementConservation db = .ok (none, db) := by
  have hcurrencies : ∀ currency ∈ (db.journals.rows.map Journal.currency).dedup,
      (currencyExponents.lookup currency).isSome = true := by
    intro currency hcurrency
    obtain ⟨journal, hjournal, rfl⟩ := List.mem_map.mp (List.mem_dedup.mp hcurrency)
    exact hsupported journal hjournal
  simp only [settlementConservation, Tx.bind_ok, Tx.read_ok]
  exact ⟨_, db, ⟨rfl, rfl⟩, _, db, conservationMismatches_nil hconserved hcurrencies, rfl⟩

/-- The dossier of a paid order holds an exact receipt. -/
theorem Accounts.Dossier.of_paid {a : Accounts} {o : Order} (h : a.Dossier o) (hpaid : o.status.isPaid = true) :
    ∃ i r j, a.Settled o i r j := by
  unfold Accounts.Dossier at h
  cases hstatus : o.status <;> rw [hstatus] at h hpaid <;> first | exact h | cases hpaid

/-- The dossier of an order that is not paid holds no settled intent. -/
theorem Accounts.Dossier.of_unpaid {a : Accounts} {o : Order} (h : a.Dossier o) (hpaid : o.status.isPaid = false) :
    a.Unopened o ∨ ∃ i, a.Awaiting o i := by
  unfold Accounts.Dossier at h
  cases hstatus : o.status <;> rw [hstatus] at h hpaid <;>
    first | exact h | exact .inl h | exact .inr h | cases hpaid

/-- Paid orders have their receipt. -/
theorem settledOrdersWithoutMatchingReceipt_none (hreconciled : Reconciled db) :
    settledOrdersWithoutMatchingReceipt db = none := by
  unfold settledOrdersWithoutMatchingReceipt
  refine Finding.ofRows_nil ?_
  rw [List.flatMap_eq_nil_iff.mpr, List.take_nil]
  intro order horder
  split
  · rename_i hpaid
    obtain ⟨i, r, j, hsettled⟩ := (hreconciled.dossier order horder).of_paid hpaid
    rw [List.map_eq_nil_iff, List.filter_eq_nil_iff]
    intro intent hintent hreported
    rw [Bool.and_eq_true, decide_eq_true_eq, List.isEmpty_iff, List.filter_eq_nil_iff] at hreported
    obtain rfl := Accounts.eq_of_mem_intentsOf hsettled.intents hintent hreported.1
    have hreceipt : r ∈ db.accounts.matchedReceiptsOf intent.id := by
      rw [hsettled.receipts]
      exact List.mem_singleton_self r
    obtain ⟨hmem, hmatched⟩ := List.mem_filter.mp hreceipt
    refine hreported.2 r hmem ?_
    rw [decide_eq_true_eq] at hmatched
    rw [Bool.and_eq_true, decide_eq_true_eq, decide_eq_true_eq]
    exact hmatched
  · rfl

/-- Settled intents belong to paid orders. -/
theorem settledIntentsWithoutPaidOrder_none (hreconciled : Reconciled db) :
    settledIntentsWithoutPaidOrder db = none := by
  unfold settledIntentsWithoutPaidOrder
  refine Finding.ofRows_nil ?_
  rw [List.flatMap_eq_nil_iff.mpr, List.take_nil]
  intro intent hintent
  split
  · rename_i hsettled
    rw [List.map_eq_nil_iff, List.filter_eq_nil_iff]
    intro order horder hreported
    rw [Bool.and_eq_true, decide_eq_true_eq, Bool.not_eq_true'] at hreported
    have hmem : intent ∈ db.accounts.intentsOf order.id :=
      Accounts.mem_intentsOf.mpr ⟨hintent, hreported.1.symm⟩
    rcases (hreconciled.dossier order horder).of_unpaid hreported.2 with hunopened | ⟨i, hawaiting⟩
    · rw [hunopened.intents] at hmem
      cases hmem
    · rw [hawaiting.intents, List.mem_singleton] at hmem
      rw [hmem, hawaiting.status] at hsettled
      cases hsettled
  · rfl

/-- A transaction posts in supported currencies only. -/
theorem JournalsSupported.step {settings : Settings} {s : Platform} {e : Event} (h : JournalsSupported s.db)
    (hchange : Change settings s e db') : JournalsSupported db' := by
  have hpost : ∀ {J : Table journalSchema} {j : Journal}, J.rows = s.db.journals.rows ++ [j] →
      (currencyExponents.lookup j.currency).isSome = true →
      ∀ j ∈ J.rows, (currencyExponents.lookup j.currency).isSome = true := by
    intro J j hJ hsupported j' hj'
    rw [hJ, List.mem_append, List.mem_singleton] at hj'
    rcases hj' with hold | rfl
    · exact h j' hold
    · exact hsupported
  cases hchange with
  | sameCore _ _ hsame =>
    intro j hj
    rw [hsame.journals] at hj
    exact h j hj
  | submitted => exact h
  | decided draws actor command now key order P db₁ A horder hid hstatus hrole hsubmitter hfirst hP heffect =>
    cases heffect <;> exact h
  | cancelled => exact h
  | ingested draws advice now db' heffect =>
    cases heffect with
    | replayed => exact h
    | unknown => exact h
    | mismatched intent payloadHash R J E M A hintent hstatus hR hJ hE hsupported => exact hpost hJ hsupported
    | settled intent order payloadHash R O T I J E M A hintent hstatus horder hid hawaiting hR hO hT hI hJ hE
        hsupported => exact hpost hJ hsupported
  | issued _ _ _ _ _ heffect =>
    cases heffect
    exact h
  | inspected _ _ _ _ _ heffect =>
    cases heffect
    exact h
  | activated _ _ _ _ _ _ _ _ heffect =>
    cases heffect
    exact h
  | retired _ _ heffect =>
    cases heffect
    exact h

/-! ### Issuance -/

/-- Every batch counts its stamps. -/
def BatchesCounted (db : Db) : Prop := ∀ b ∈ db.stampBatches.rows, b.issuedCount = stampCount db b.id

/-- Batches that count their stamps are not reported. -/
theorem issuanceCountMismatch_none (h : BatchesCounted db) : issuanceCountMismatch db = none := by
  unfold issuanceCountMismatch
  refine Finding.ofRows_nil ?_
  rw [List.filter_eq_nil_iff.mpr, List.take_nil]
  intro batch hbatch hreported
  rw [Bool.or_eq_true, decide_eq_true_eq, decide_eq_true_eq] at hreported
  have hcheck := db.stampBatches.valid.check batch hbatch
  simp only [stampBatchSchema, Bool.and_eq_true, decide_eq_true_eq] at hcheck
  rcases hreported with hdiffers | hexceeds
  · exact hdiffers (h batch hbatch)
  · exact absurd hcheck.2 (not_le.mpr hexceeds)

/-- No two stamps have one serial. -/
theorem duplicateSerials_none (db : Db) : duplicateSerials db = none := by
  unfold duplicateSerials
  refine Finding.ofRows_nil ?_
  rw [List.filter_eq_nil_iff.mpr, List.take_nil]
  intro serial _ hreported
  have hcount := List.nodup_iff_count_le_one.mp (serials_nodup db.stamps) serial
  exact absurd (of_decide_eq_true hreported) (not_lt.mpr hcount)

/-- Relabelled batches and stamps are counted as before. -/
theorem BatchesCounted.relabel (h : BatchesCounted db) {f : StampBatch → StampBatch} {g : Stamp → Stamp}
    (hid : ∀ b, (f b).id = b.id) (hissued : ∀ b, (f b).issuedCount = b.issuedCount) (hg : KeepsStamp g)
    (hB : db'.stampBatches.rows = db.stampBatches.rows.map f) (hS : db'.stamps.rows = db.stamps.rows.map g) :
    BatchesCounted db' := by
  have hcount : ∀ batchId, stampCount db' batchId = stampCount db batchId := by
    intro batchId
    rw [stampCount, stampCount, hS, List.countP_map]
    refine congrArg _ (List.countP_congr fun s _ => ?_)
    simp only [Function.comp_apply, hg.batchId]
  intro b' hb'
  rw [hB] at hb'
  obtain ⟨b, hb, rfl⟩ := List.mem_map.mp hb'
  rw [hid, hissued, hcount]
  exact h b hb

/-- A chunk counts the stamps it adds to its batch. -/
theorem BatchesCounted.issued {settings : Settings} {draws : Draws} {orderId : Uuid} {chunkSize : ℤ} {now : Time}
    (h : BatchesCounted db) (hstock : Stocktake db) (heffect : IssueEffect settings draws orderId chunkSize now db db') :
    BatchesCounted db' := by
  cases heffect with
  | chunk order batch base added complete f O T B C S M A horder hid hstatus hbatch hbase hadded hcount hcomplete hf
      hO hT hB hS hM hissued hfresh hclaimed hanchor hA hchunk =>
    -- a batch that is in the table counts its stamps, and a new batch has none
    have hold : batch.issuedCount = stampCount db batch.id := by
      rcases hfresh with hmem | hzero
      · exact h batch hmem
      · rcases hbase with ⟨hfilter, -⟩ | ⟨-, -, hnew⟩
        · exact h batch (mem_of_filter_eq_singleton hfilter).1
        · have hnone : db.stamps.rows.countP (fun s => s.batchId = batch.id) = 0 := by
            refine List.countP_eq_zero.mpr fun s hs hsame => ?_
            obtain ⟨b, hb, hbid, -⟩ := hstock.stamps s hs
            exact Stocktake.batch_ne_of_new hf hB hnew b hb (hbid.trans (of_decide_eq_true hsame))
          rw [hzero, stampCount, hnone]
          rfl
    have hgrown : ∀ batchId, ((S.rows.countP fun s => s.batchId = batchId : ℕ) : ℤ) =
        stampCount db batchId + if batchId = batch.id then (added.length : ℤ) else 0 := by
      intro batchId
      rw [hS, List.countP_append, Nat.cast_add, stampCount]
      refine congrArg _ ?_
      split
      · rename_i hsame
        rw [List.countP_eq_length.mpr fun s hs => decide_eq_true ((hadded s hs).2.1.trans hsame.symm)]
      · rename_i hother
        rw [List.countP_eq_zero.mpr fun s hs hsame => hother ?_]
        · rfl
        · rw [← (hadded s hs).2.1]
          exact (of_decide_eq_true hsame).symm
    intro b' hb'
    change b' ∈ B.rows at hb'
    change b'.issuedCount = ((S.rows.countP fun s => s.batchId = b'.id : ℕ) : ℤ)
    rw [hB] at hb'
    obtain ⟨b, hb, rfl⟩ := List.mem_map.mp hb'
    have hmem : b ∈ db.stampBatches.rows ∨ b = batch := by
      rcases hbase with ⟨-, rfl⟩ | ⟨-, -, rfl⟩
      · exact .inl hb
      · rw [List.mem_append, List.mem_singleton] at hb
        exact hb
    have hcounted : b.issuedCount = stampCount db b.id := by
      rcases hmem with hmem | rfl
      · exact h b hmem
      · exact hold
    split
    · rename_i hsame
      rw [hf.id, hgrown, if_pos hsame, hsame]
      rcases hissued with hnow | ⟨rfl, hkept⟩
      · exact hnow b
      · rw [hkept, hcounted, hsame]
        simp
    · rename_i hother
      rw [hgrown, if_neg hother, hcounted, Int.add_zero]

/-- Every transaction keeps the counts. -/
theorem BatchesCounted.step {settings : Settings} {s : Platform} {e : Event} (h : BatchesCounted s.db)
    (hstock : Stocktake s.db) (hchange : Change settings s e db') : BatchesCounted db' := by
  cases hchange with
  | sameCore _ _ hsame =>
    intro b hb
    rw [hsame.stampBatches] at hb
    rw [stampCount, hsame.stamps]
    exact h b hb
  | submitted => exact h
  | decided draws actor command now key order P db₁ A horder hid hstatus hrole hsubmitter hfirst hP heffect =>
    cases heffect <;> exact h
  | cancelled => exact h
  | ingested draws advice now db' heffect => cases heffect <;> exact h
  | issued draws orderId chunkSize now db' heffect => exact h.issued hstock heffect
  | inspected _ _ _ _ _ heffect =>
    cases heffect with
    | inspected batch inspection g N S V B A hbatch hstatus hinspection hfirst hN hg hactive hS hB =>
      refine h.relabel (fun b => ?_) (fun b => ?_) hg hB hS <;> split <;> rfl
  | activated _ _ _ _ _ _ _ _ heffect =>
    cases heffect with
    | changed g S V A hg hactive hS =>
      exact h.relabel (fun _ => rfl) (fun _ => rfl) hg (List.map_id' _).symm hS
  | retired _ _ heffect =>
    cases heffect with
    | changed g S V A hg hactive hS =>
      exact h.relabel (fun _ => rfl) (fun _ => rfl) hg (List.map_id' _).symm hS

/-! ### The audit chain -/

/-- What an event commits appends at most one event to the audit chain. -/
theorem Committed.auditGrows {settings : Settings} {s : Platform} {e : Event} {db' : Db}
    (h : Committed settings s e db') : AuditGrows settings s.db.auditEvents.rows db'.auditEvents.rows := by
  cases h with
  | unchanged => exact .inl rfl
  | submitOrder h =>
    obtain ⟨draft, compliant, O, T, A, -, -, -, -, -, hA, rfl⟩ := submitOrder_ok h
    exact .inr hA
  | decideApproval h =>
    obtain ⟨order, P, db₁, A, -, -, -, -, -, -, -, -, hA, rfl⟩ := decideApproval_ok h
    exact .inr hA
  | cancelOrder h =>
    obtain ⟨order, O, T, A, -, -, -, -, -, -, hA, rfl⟩ := cancelOrder_ok h
    exact .inr hA
  | ingestRemittance h =>
    cases ingestRemittance_ok h with
    | replayed => exact .inl rfl
    | unknown payloadHash R A hR hA => exact .inr hA
    | mismatched intent payloadHash R J E M A hintent hstatus hR hJ hE hsupported hM hannounced hA => exact .inr hA
    | settled intent order payloadHash R O T I J E M A hintent hstatus horder hid hawaiting hR hO hT hI hJ hE hsupported
        hM hannounced hA => exact .inr hA
  | issueChunk h =>
    cases issueOrderChunk_ok h with
    | chunk order batch base added complete f O T B C S M A horder hid hstatus hbatch hbase hadded hcount hcomplete hf
        hO hT hB hS hM hissued hfresh hclaimed hanchor hA hchunk =>
      cases complete with
      | true => exact .inr hA
      | false => exact .inl hA
  | recordInspection h =>
    cases recordInspection_ok h with
    | inspected batch inspection g N S V B A hbatch hstatus hinspection hfirst hN hg hactive hS hB hmarks hA =>
      exact .inr hA
  | activateStamps ha h =>
    cases activateStamps_ok h with
    | changed g S V A hg hactive hS hmarks hA => exact hA
  | voidStamps h =>
    cases voidStamps_ok h with
    | changed g S V A hg hactive hS hmarks hA => exact hA
  | expireDueStamps h =>
    cases expireDueStamps_ok h with
    | changed g S V A hg hactive hS hmarks hA => exact hA
  | createLedgerIntent h =>
    cases createLedgerIntent_ok h with
    | reused => exact .inl rfl
    | created intent payment L M A hpayment hid hsettled hamount hcurrency hready hL hM hannounced hA => exact .inr hA
  | ledgerWork work =>
    rcases work.commit_outcome settings s.db with hkept | ⟨intent, f, heffect, -⟩
    · exact .inl (by rw [hkept])
    · generalize work.commit settings s.db = db' at heffect
      cases heffect with
      | rewritten f L A hintent hid hL hA => exact hA
  | claimBatch h =>
    obtain ⟨candidates, M, -, -, -, rfl⟩ := claimBatch_ok h
    exact .inl rfl
  | markProcessed h =>
    obtain ⟨M, -, rfl⟩ := markProcessed_ok h
    exact .inl rfl
  | markFailed h =>
    obtain ⟨M, -, -, rfl⟩ := markFailed_ok h
    exact .inl rfl
  | recordAudit h =>
    obtain ⟨A, hA, rfl⟩ := recordAuditEvent_ok h
    exact .inr hA

/-- Every transaction appends at most one event to the audit chain. -/
theorem step_auditGrows (settings : Settings) (s : Platform) (e : Event) :
    AuditGrows settings s.db.auditEvents.rows (step settings s e).db.auditEvents.rows :=
  (step_committed settings s e).auditGrows

/-- In the order of decreasing numbers, increasing rows are reversed. -/
theorem insertionSort_reverse {rows : List AuditEvent} (h : rows.Pairwise fun a b => a.seq < b.seq) :
    rows.insertionSort (fun a b => decide (b.seq ≤ a.seq) = true) = rows.reverse := by
  induction rows with
  | nil => rfl
  | cons event rest ih =>
    have hlast : ∀ later : List AuditEvent, (∀ b ∈ later, event.seq < b.seq) →
        later.orderedInsert (fun a b => decide (b.seq ≤ a.seq) = true) event = later ++ [event] := by
      intro later
      induction later with
      | nil => exact fun _ => rfl
      | cons b later ih =>
        intro hlater
        have hb : ¬decide (b.seq ≤ event.seq) = true := by simpa using hlater b List.mem_cons_self
        rw [List.orderedInsert_cons, if_neg hb, ih fun c hc => hlater c (List.mem_cons_of_mem _ hc), List.cons_append]
    rw [List.pairwise_cons] at h
    rw [List.insertionSort_cons, ih h.2, hlast _ fun b hb => h.1 b (List.mem_reverse.mp hb), List.reverse_cons]

/-- The events are stored in the order of their numbers and linked in this order. -/
structure Chained (settings : Settings) (rows : List AuditEvent) : Prop where
  increasing : rows.Pairwise fun a b => a.seq < b.seq
  linked : Linked (ChainLink settings.crypto settings.auditChainSecret) AuditEvent.hash genesisHash rows

/-- The last event is the latest. -/
theorem Chained.latestEvent {settings : Settings} {rows : List AuditEvent} (h : Chained settings rows) :
    latestEvent rows = rows.getLast? := by
  rw [TaxStamp.latestEvent, insertionSort_reverse h.increasing, List.head?_reverse]

/-- A transaction continues the chain. -/
theorem Chained.grows {settings : Settings} {rows rows' : List AuditEvent} (h : Chained settings rows)
    (hgrows : AuditGrows settings rows rows') : Chained settings rows' := by
  rcases hgrows with rfl | ⟨event, hcontinues, rfl⟩
  · exact h
  · have hseq := hcontinues.seq
    have hprev := hcontinues.prevHash
    rw [h.latestEvent] at hseq hprev
    refine ⟨List.pairwise_append.mpr ⟨h.increasing, List.pairwise_singleton _ _, fun a ha b hb => ?_⟩,
      (linked_concat rows event).mpr ⟨h.linked, hprev, ?_⟩⟩
    · rw [List.mem_singleton.mp hb]
      obtain ⟨first, last, rfl⟩ := (List.eq_nil_or_concat' rows).resolve_left (List.ne_nil_of_mem ha)
      rw [List.getLast?_concat] at hseq
      have hincreasing := h.increasing
      rw [List.pairwise_append] at hincreasing
      rcases List.mem_append.mp ha with hfirst | hlast
      · exact (hincreasing.2.2 a hfirst last (List.mem_singleton_self last)).trans hseq
      · rw [List.mem_singleton.mp hlast]
        exact hseq
    · have hhash := hcontinues.hash
      rw [hprev] at hhash
      exact hhash

/-- A chain that is stored in order verifies. -/
theorem Chained.verify {settings : Settings} {rows : List AuditEvent} (h : Chained settings rows) :
    verifyAuditChain settings.crypto settings.auditChainSecret rows = .ok ⟨rows.length, true, none, none⟩ := by
  have hsorted : inSeqOrder rows = rows := by
    refine List.Pairwise.insertionSort_eq (h.increasing.imp fun hlt => ?_)
    exact decide_eq_true (Nat.le_of_lt hlt)
  have hreport : (⟨rows.length, true, none, none⟩ : ChainVerification) = ⟨0 + rows.length, true, none, none⟩ := by
    rw [Nat.zero_add]
  rw [verifyAuditChain, hsorted]
  exact (verifyEvents_intact.mpr ⟨h.linked, hreport⟩).1

/-- What the checks of a reconciliation recompute. -/
structure Sound (settings : Settings) (db : Db) : Prop where
  reconciled : Reconciled db
  conserved : db.accounts.Conserved
  supported : JournalsSupported db
  stocktake : Stocktake db
  counted : BatchesCounted db
  chained : Chained settings db.auditEvents.rows

/-- Every run is sound. -/
theorem Sound.run (settings : Settings) (companies : Table companySchema) (tariffs : Table tariffSchema)
    (events : List Event) : Sound settings (Lib.run (TaxStamp.step settings) (.initial companies tariffs) events).db := by
  refine run_invariant (fun s : Platform => Sound settings s.db) (fun s e h => ?_) _ ?_ events
  · have hchange := step_change settings s e
    exact {
      reconciled := h.reconciled.step settings s e
      conserved := h.conserved.step settings s e h.reconciled
      supported := h.supported.step hchange
      stocktake := h.stocktake.step settings s e
      counted := h.counted.step h.stocktake hchange
      chained := h.chained.grows (step_auditGrows settings s e) }
  · exact {
      reconciled := .initial companies tariffs
      conserved := Accounts.Conserved.run settings companies tariffs []
      supported := fun _ hj => absurd hj List.not_mem_nil
      stocktake := .initial companies tariffs
      counted := fun _ hb => absurd hb List.not_mem_nil
      chained := ⟨.nil, trivial⟩ }

/-- Reconciliation raises no false alarm: after every run of the services the checks return without a finding, and the
verification of the audit chain has checked every event. -/
theorem reconciliation_clean (settings : Settings) (companies : Table companySchema) (tariffs : Table tariffSchema)
    (events : List RegisterEvent) :
    let db := (run (registerStep settings) (.initial companies tariffs) events).platform.db
    unbalancedJournalFinding db = none ∧
      settlementConservation db = .ok (none, db) ∧
      settledOrdersWithoutMatchingReceipt db = none ∧
      settledIntentsWithoutPaidOrder db = none ∧
      issuanceCountMismatch db = none ∧
      duplicateSerials db = none ∧
      auditChain settings db = .ok none ∧
      verifyAuditChain settings.crypto settings.auditChainSecret db.auditEvents.rows =
        .ok ⟨db.auditEvents.rows.length, true, none, none⟩ := by
  intro db
  have hsound : Sound settings db := by
    obtain ⟨events', hplatform⟩ := register_platform settings companies tariffs events
    change Sound settings (run (registerStep settings) (.initial companies tariffs) events).platform.db
    rw [hplatform]
    exact .run settings companies tariffs events'
  have hverify := hsound.chained.verify
  refine ⟨unbalancedJournalFinding_none hsound.reconciled hsound.conserved,
    settlementConservation_none hsound.conserved hsound.supported,
    settledOrdersWithoutMatchingReceipt_none hsound.reconciled, settledIntentsWithoutPaidOrder_none hsound.reconciled,
    issuanceCountMismatch_none hsound.counted, duplicateSerials_none db, ?_, hverify⟩
  rw [auditChain, hverify]
  rfl

end TaxStamp
