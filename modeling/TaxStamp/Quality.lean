import TaxStamp.Stocktake

/-!
# Failed inspections

The inspector fails a batch and the activation looks at the batch status, but the issuer
writes that status too: a redelivered request to issue an order completes its batch again
and marks it as issued. An activation may also have read the status before the inspection
committed. In runs where neither happens a failed inspection is permanent.
-/

namespace TaxStamp

open Lib

/-- The batch has an inspection that did not accept it. -/
def RejectedBatch (db : Db) (batchId : Uuid) : Prop :=
  ∃ i ∈ db.inspections.rows, i.batchId = batchId ∧ i.accepted = false

/-- The batch is marked as failed. -/
def FailedBatch (db : Db) (batchId : Uuid) : Prop :=
  ∃ b ∈ db.stampBatches.rows, b.id = batchId ∧ b.status = .inspectionFailed

/-- No stamp of the batch becomes active between two states. -/
def NoneActivated (db db' : Db) (batchId : Uuid) : Prop :=
  ∀ st ∈ db.stamps.rows, st.batchId = batchId →
    ∀ st' ∈ db'.stamps.rows, st'.id = st.id → st'.status = .active → st.status = .active

instance (db : Db) (batchId : Uuid) : Decidable (RejectedBatch db batchId) :=
  inferInstanceAs (Decidable (∃ i ∈ db.inspections.rows, i.batchId = batchId ∧ i.accepted = false))

instance (db : Db) (batchId : Uuid) : Decidable (FailedBatch db batchId) :=
  inferInstanceAs (Decidable (∃ b ∈ db.stampBatches.rows, b.id = batchId ∧ b.status = .inspectionFailed))

instance (db db' : Db) (batchId : Uuid) : Decidable (NoneActivated db db' batchId) :=
  inferInstanceAs (Decidable (∀ st ∈ db.stamps.rows, st.batchId = batchId →
    ∀ st' ∈ db'.stamps.rows, st'.id = st.id → st'.status = .active → st.status = .active))

/-- The step neither issues an order whose batch has failed, nor activates an issued stamp of a batch that
has failed since the activation read its status. -/
def respectsFailures (s : Platform) : Event → Prop
  | .issueChunk _ orderId _ _ =>
    ∀ b ∈ s.db.stampBatches.rows, b.orderId = orderId → b.status ≠ .inspectionFailed
  | .activateStamps index _ _ _ _ =>
    ∀ a ∈ s.activations[index]?, ∀ st ∈ s.db.stamps.rows, st.serial ∈ distinct a.serials → st.status = .issued →
      FailedBatch s.db st.batchId → a.statuses.lookup st.batchId = some .inspectionFailed
  | _ => True

instance (s : Platform) : (e : Event) → Decidable (respectsFailures s e)
  | .issueChunk _ orderId _ _ => inferInstanceAs (Decidable
      (∀ b ∈ s.db.stampBatches.rows, b.orderId = orderId → b.status ≠ .inspectionFailed))
  | .activateStamps index _ _ _ _ => inferInstanceAs (Decidable
      (∀ a ∈ s.activations[index]?, ∀ st ∈ s.db.stamps.rows, st.serial ∈ distinct a.serials → st.status = .issued →
        FailedBatch s.db st.batchId → a.statuses.lookup st.batchId = some .inspectionFailed))
  | .submitOrder .. | .decideApproval .. | .cancelOrder .. | .ingestRemittance .. | .recordInspection ..
  | .readStatuses .. | .voidStamps .. | .expireDueStamps .. | .createLedgerIntent .. | .ledgerWork ..
  | .claimBatch .. | .markProcessed .. | .markFailed .. | .recordAudit .. => inferInstanceAs (Decidable True)

/-- Inspections are never removed. -/
theorem Change.rejectedBatch {settings : Settings} {s : Platform} {e : Event} {db' : Db} (h : Change settings s e db')
    {batchId : Uuid}
    (hrejected : RejectedBatch s.db batchId) : RejectedBatch db' batchId := by
  cases h with
  | sameCore e db' hsame =>
    unfold RejectedBatch
    rw [hsame.inspections]
    exact hrejected
  | inspected draws actor command now db' heffect =>
    obtain ⟨batch, inspection, g, N, S, V, B, A, hbatch, hstatus, hinspection, hfirst, hN, hg, hactive, hS, hB⟩ :=
      heffect
    obtain ⟨i, hi, hrest⟩ := hrejected
    refine ⟨i, ?_, hrest⟩
    change i ∈ N.rows
    rw [hN]
    exact List.mem_append_left _ hi
  | submitted compliance draws actor command now key draft compliant O T A hdraft hfresh hO hT => exact hrejected
  | decided draws actor command now key order P db₁ A horder hid hstatus hrole hsubmitter hfirst hP heffect =>
    cases heffect <;> exact hrejected
  | cancelled draws actor orderId reason now order O T A horder hid hmay hlegal hO hT => exact hrejected
  | ingested draws advice now db' heffect =>
    cases heffect <;> exact hrejected
  | issued draws orderId chunkSize now db' heffect =>
    cases heffect
    exact hrejected
  | activated index draws actor now key a db' ha heffect =>
    cases heffect
    exact hrejected
  | retired e db' heffect =>
    cases heffect
    exact hrejected

/-- Every rejected batch is marked as failed. -/
def FailuresStand (db : Db) : Prop := ∀ batchId, RejectedBatch db batchId → FailedBatch db batchId

/-- A chunk leaves a failed batch of another order alone. -/
theorem FailedBatch.issued {settings : Settings} {draws : Draws} {db db' : Db} {orderId : Uuid} {chunkSize : ℤ} {now : Time}
    (heffect : IssueEffect settings draws orderId chunkSize now db db')
    (hguard : ∀ b ∈ db.stampBatches.rows, b.orderId = orderId → b.status ≠ .inspectionFailed) {batchId : Uuid}
    (h : FailedBatch db batchId) : FailedBatch db' batchId := by
  obtain ⟨order, batch, base, added, complete, f, O, T, B, C, S, M, A, horder, hid, hstatus, hbatch, hbase,
    hadded, hcount, hcomplete, hf, hO, hT, hB, hS⟩ := heffect
  obtain ⟨b, hb, hbid, hfailed⟩ := h
  have hne : b.id ≠ batch.id := by
    intro heq
    rcases hbase with ⟨hold, -⟩ | ⟨-, -, hnew⟩
    · have hsame := db.stock.batch_eq_of_id hb (mem_of_filter_eq_singleton hold).1 heq
      exact hguard b hb (by rw [hsame, hbatch, hid]) hfailed
    · exact Stocktake.batch_ne_of_new hf hB hnew b hb heq
  have hmem : b ∈ base := by
    rcases hbase with ⟨-, rfl⟩ | ⟨-, -, rfl⟩
    · exact hb
    · exact List.mem_append_left _ hb
  refine ⟨b, ?_, hbid, hfailed⟩
  change b ∈ B.rows
  rw [hB, setBatch, List.mem_map]
  exact ⟨b, hmem, if_neg hne⟩

/-- A step that respects failures leaves every rejected batch failed. -/
theorem FailuresStand.step (settings : Settings) (s : Platform) (e : Event) (h : FailuresStand s.db)
    (hguard : respectsFailures s e) : FailuresStand (TaxStamp.step settings s e).db := by
  have hchange := step_change settings s e
  generalize (TaxStamp.step settings s e).db = db' at hchange ⊢
  cases hchange with
  | sameCore e db' hsame =>
    intro batchId hrejected
    unfold RejectedBatch at hrejected
    unfold FailedBatch
    rw [hsame.inspections] at hrejected
    rw [hsame.stampBatches]
    exact h batchId hrejected
  | submitted compliance draws actor command now key draft compliant O T A hdraft hfresh hO hT => exact h
  | decided draws actor command now key order P db₁ A horder hid hstatus hrole hsubmitter hfirst hP heffect =>
    cases heffect <;> exact h
  | cancelled draws actor orderId reason now order O T A horder hid hmay hlegal hO hT => exact h
  | ingested draws advice now db' heffect =>
    cases heffect <;> exact h
  | issued draws orderId chunkSize now db' heffect =>
    intro batchId hrejected
    have hbefore : RejectedBatch s.db batchId := by
      cases heffect
      exact hrejected
    exact (h batchId hbefore).issued heffect hguard
  | inspected draws actor command now db' heffect =>
    obtain ⟨batch, inspection, g, N, S, V, B, A, hbatch, hstatus, hinspection, hfirst, hN, hg, hactive, hS, hB⟩ :=
      heffect
    rintro batchId ⟨i, hi, rfl, haccepted⟩
    change i ∈ N.rows at hi
    rw [hN, List.mem_append, List.mem_singleton] at hi
    have hmap : ∀ b ∈ s.db.stampBatches.rows, (if inspection.accepted = false ∧ b.id = batch.id
        then { b with status := .inspectionFailed } else b) ∈ B.rows := by
      intro b hb
      rw [hB]
      exact List.mem_map_of_mem hb
    rcases hi with hi | rfl
    · obtain ⟨b, hb, hid, hfailed⟩ := h i.batchId ⟨i, hi, rfl, haccepted⟩
      refine ⟨_, hmap b hb, ?_⟩
      split
      · exact ⟨hid, rfl⟩
      · exact ⟨hid, hfailed⟩
    · refine ⟨_, hmap batch hbatch, ?_⟩
      rw [if_pos ⟨haccepted, rfl⟩]
      exact ⟨hinspection.symm, rfl⟩
  | activated index draws actor now key a db' ha heffect =>
    cases heffect
    exact h
  | retired e db' heffect =>
    cases heffect
    exact h

/-- A stamp becomes active only through an activation that read no failure of its batch. -/
theorem Change.activation {settings : Settings} {s : Platform} {e : Event} {db' : Db} (h : Change settings s e db')
    {st st' : Stamp}
    (hst : st ∈ s.db.stamps.rows) (hst' : st' ∈ db'.stamps.rows) (hid : st'.id = st.id)
    (hactive : st'.status = .active) :
    st.status = .active ∨ ∃ index draws actor now key a, e = .activateStamps index draws actor now key ∧
      s.activations[index]? = some a ∧ st.serial ∈ distinct a.serials ∧ st.status = .issued ∧
      a.statuses.lookup st.batchId ≠ some .inspectionFailed := by
  have hsame : st' ∈ s.db.stamps.rows → st.status = .active := by
    intro hmem
    rw [← stamp_eq_of_id hmem hst hid]
    exact hactive
  have hmapped : ∀ (g : Stamp → Stamp) (S : Table stampSchema), KeepsStamp g → S.rows = s.db.stamps.rows.map g →
      st' ∈ S.rows → (g st).status = .active := by
    intro g S hg hS hmem
    rw [hS, List.mem_map] at hmem
    obtain ⟨old, hold, rfl⟩ := hmem
    rw [hg.id] at hid
    rw [← stamp_eq_of_id hold hst hid]
    exact hactive
  cases h with
  | sameCore e db' hcore =>
    rw [hcore.stamps] at hst'
    exact .inl (hsame hst')
  | submitted compliance draws actor command now key draft compliant O T A hdraft hfresh hO hT =>
    exact .inl (hsame hst')
  | decided draws actor command now key order P db₁ A horder horderId hstatus hrole hsubmitter hfirst hP heffect =>
    cases heffect <;> exact .inl (hsame hst')
  | cancelled draws actor orderId reason now order O T A horder horderId hmay hlegal hO hT =>
    exact .inl (hsame hst')
  | ingested draws advice now db' heffect =>
    cases heffect <;> exact .inl (hsame hst')
  | issued draws orderId chunkSize now db' heffect =>
    obtain ⟨order, batch, base, added, complete, f, O, T, B, C, S, M, A, horder, horderId, hstatus, hbatch, hbase,
      hadded, hcount, hcomplete, hf, hO, hT, hB, hS⟩ := heffect
    change st' ∈ S.rows at hst'
    rw [hS, List.mem_append] at hst'
    rcases hst' with hold | hnew
    · exact .inl (hsame hold)
    · rw [(hadded st' hnew).2.2] at hactive
      contradiction
  | inspected draws actor command now db' heffect =>
    obtain ⟨batch, inspection, g, N, S, V, B, A, hbatch, hstatus, hinspection, hfirst, hN, hg, hkept, hS, hB⟩ :=
      heffect
    exact .inl (hkept st (hmapped g S hg hS hst'))
  | activated index draws actor now key a db' ha heffect =>
    obtain ⟨g, S, V, A, hg, hkept, hS⟩ := heffect
    rcases hkept st (hmapped g S hg hS hst') with hbefore | hmay
    · exact .inl hbefore
    · exact .inr ⟨index, draws, actor, now, key, a, rfl, ha, hmay⟩
  | retired e db' heffect =>
    obtain ⟨g, S, V, A, hg, hkept, hS⟩ := heffect
    exact .inl ((hkept st (hmapped g S hg hS hst')).resolve_right id)

/-- A step that respects failures activates no stamp of a failed batch. -/
theorem noneActivated_step (settings : Settings) (s : Platform) (e : Event) (hguard : respectsFailures s e)
    {batchId : Uuid} (hfailed : FailedBatch s.db batchId) :
    NoneActivated s.db (step settings s e).db batchId := by
  rintro st hst rfl st' hst' hid hactive
  rcases (step_change settings s e).activation hst hst' hid hactive with hbefore | hactivated
  · exact hbefore
  · obtain ⟨index, draws, actor, now, key, a, rfl, ha, hserial, hissued, hread⟩ := hactivated
    exact absurd (hguard a ha st hst hserial hissued hfailed) hread

/-- A failed inspection is permanent in every run whose steps respect failures: from the state that has the
rejecting inspection on, the batch stays failed and no stamp of it becomes active. -/
theorem failed_inspection_permanent (settings : Settings) (companies : Table companySchema)
    (tariffs : Table tariffSchema) (first rest : List Event)
    (halong : Along (step settings) respectsFailures (Platform.initial companies tariffs) (first ++ rest))
    (batchId : Uuid)
    (hrejected : RejectedBatch (Lib.run (step settings) (Platform.initial companies tariffs) first).db batchId) :
    FailedBatch (Lib.run (step settings) (Platform.initial companies tariffs) (first ++ rest)).db batchId ∧
      ∀ mid e tail, rest = mid ++ e :: tail →
        NoneActivated (Lib.run (step settings) (Platform.initial companies tariffs) (first ++ mid)).db
          (Lib.run (step settings) (Platform.initial companies tariffs) (first ++ mid ++ [e])).db batchId := by
  have hfailed : ∀ later, Along (step settings) respectsFailures (Platform.initial companies tariffs) (first ++ later) →
      FailedBatch (Lib.run (step settings) (Platform.initial companies tariffs) (first ++ later)).db batchId := by
    intro later hlater
    have hstand := run_invariant_along (fun s => FailuresStand s.db)
      (fun s e h hguard => h.step settings s e hguard) (Platform.initial companies tariffs) ?_ _ hlater
    · apply hstand
      rw [run_append]
      exact run_invariant (fun s => RejectedBatch s.db batchId)
        (fun s e h => (step_change settings s e).rejectedBatch h) _ hrejected later
    · rintro id ⟨i, hi, -⟩
      cases hi
  refine ⟨hfailed rest halong, ?_⟩
  rintro mid e tail rfl
  rw [← List.append_assoc, along_append] at halong
  obtain ⟨hmid, hguard, -⟩ := halong
  rw [run_concat]
  exact noneActivated_step settings _ e hguard (hfailed mid hmid)

/-- An operator. -/
def sampleOperator : Actor := ⟨⟨13⟩, "ops", .operator, none, none⟩

/-- The stamp of the sample order is found defective. -/
def sampleRejected : List Event :=
  sampleIssued ++ [.recordInspection (sampleDraws 5) sampleOperator ⟨⟨400⟩, 1, []⟩ sampleNow]

/-- The activation of the stamp of the sample order. -/
def sampleActivation : List Event :=
  [.readStatuses ["NG-BEV-2026-0000000001-W"], .activateStamps 0 (sampleDraws 6) sampleOperator sampleNow none]

/-- What the failed inspection of the sample batch leaves, and what a redelivered request to issue its order does. -/
theorem sampleRejected_runs :
    Along (step sampleSettings) respectsFailures samplePlatform (sampleRejected ++ sampleActivation) ∧
      RejectedBatch (Lib.run (step sampleSettings) samplePlatform sampleRejected).db ⟨400⟩ ∧
      ¬FailedBatch (Lib.run (step sampleSettings) samplePlatform
        (sampleRejected ++ [.issueChunk (sampleDraws 7) ⟨100⟩ 100 sampleNow])).db ⟨400⟩ ∧
      ¬NoneActivated (Lib.run (step sampleSettings) samplePlatform
          (sampleRejected ++ [.issueChunk (sampleDraws 7) ⟨100⟩ 100 sampleNow])).db
        (Lib.run (step sampleSettings) samplePlatform
          (sampleRejected ++ [.issueChunk (sampleDraws 7) ⟨100⟩ 100 sampleNow] ++ sampleActivation)).db ⟨400⟩ := by
  decide +kernel

/-- An activation after the failed inspection of the sample batch changes nothing. -/
theorem failed_inspection_permanent_sample :
    RejectedBatch (Lib.run (step sampleSettings) samplePlatform sampleRejected).db ⟨400⟩ ∧
      FailedBatch (Lib.run (step sampleSettings) samplePlatform (sampleRejected ++ sampleActivation)).db ⟨400⟩ := by
  obtain ⟨halong, hrejected, -⟩ := sampleRejected_runs
  have hpermanent := failed_inspection_permanent sampleSettings sampleCompanies sampleTariffs sampleRejected
    sampleActivation halong ⟨400⟩ hrejected
  exact ⟨hrejected, hpermanent.1⟩

/-- A redelivered request to issue the sample order marks its failed batch as issued, and its defective
stamp is then activated. -/
theorem not_failed_inspection_permanent :
    RejectedBatch (Lib.run (step sampleSettings) samplePlatform sampleRejected).db ⟨400⟩ ∧
      ¬FailedBatch (Lib.run (step sampleSettings) samplePlatform
        (sampleRejected ++ [.issueChunk (sampleDraws 7) ⟨100⟩ 100 sampleNow])).db ⟨400⟩ ∧
      ¬NoneActivated (Lib.run (step sampleSettings) samplePlatform
          (sampleRejected ++ [.issueChunk (sampleDraws 7) ⟨100⟩ 100 sampleNow])).db
        (Lib.run (step sampleSettings) samplePlatform
          (sampleRejected ++ [.issueChunk (sampleDraws 7) ⟨100⟩ 100 sampleNow] ++ sampleActivation)).db ⟨400⟩ :=
  sampleRejected_runs.2

end TaxStamp
